import Slate.Endpoints

/-! What the validation of an endpoint accepts: the parts of a URL, which the code finds by the
first occurrences of the separators between them. -/

namespace Slate

structure EndpointParts where
  scheme : List Char
  userinfo : Option (List Char)
  host : List Char
  port : Option (List Char)
deriving DecidableEq

namespace EndpointParts

def authority (parts : EndpointParts) : List Char :=
  parts.userinfo.elim [] (· ++ ['@']) ++ (parts.host ++ parts.port.elim [] (':' :: ·))

def text (parts : EndpointParts) : List Char := parts.scheme ++ "://".toList ++ parts.authority

structure Valid (parts : EndpointParts) : Prop where
  scheme : parts.scheme ≠ [] ∧ ∀ c ∈ parts.scheme, c.isLower ∨ c.isDigit ∨ c = '+' ∨ c = '.' ∨ c = '-'
  userinfo : ∀ userinfo, parts.userinfo = some userinfo → ∀ c ∈ ['/', '?', '#', '@'], c ∉ userinfo
  host : parts.host ≠ [] ∧ ∀ c ∈ ['/', ':', '?', '#', '@'], c ∉ parts.host
  port : ∀ port, parts.port = some port → port ≠ [] ∧ ∀ c ∈ port, c.isDigit

/-- What the code accepts: a slash in the user information, a second one of the separators that
end it, and no host in front of a port. -/
structure Accepted (parts : EndpointParts) : Prop where
  scheme : parts.scheme ≠ [] ∧ ∀ c ∈ parts.scheme, c ∈ schemeCharacters
  userinfo : ∀ userinfo, parts.userinfo = some userinfo → ∀ c ∈ ['?', '#', '@'], c ∉ userinfo
  host : ∀ c ∈ ['/', ':', '?', '#'], c ∉ parts.host
  undivided : parts.userinfo = none → '@' ∉ parts.host
  placed : parts.host ≠ [] ∨ parts.port ≠ none
  port : ∀ port, parts.port = some port → port ≠ [] ∧ ∀ c ∈ port, c ∈ portCharacters

/-- No user information with a slash, and a host without the sign that ends the user information. -/
structure Plain (parts : EndpointParts) : Prop where
  userinfo : ∀ userinfo, parts.userinfo = some userinfo → '/' ∉ userinfo
  host : parts.host ≠ [] ∧ '@' ∉ parts.host

end EndpointParts

variable {front rest : List Char} {c : Char}

/-- A place in front is found before the rest. -/
theorem lessPos_findIdx (chosen : Char → Bool) (base : Nat) (front rest : List Char) :
    lessPos (((front ++ rest).findIdx? chosen).map (base + ·)) (some (base + front.length)) = front.any chosen := by
  rw [List.findIdx?_append]
  cases found : front.findIdx? chosen with
  | none =>
    have absent : front.any chosen = false := by simpa using List.findIdx?_eq_none_iff.mp found
    rw [absent, Option.none_or, Option.map_map]
    cases rest.findIdx? chosen with
    | none => rfl
    | some place =>
      simp only [Option.map_some, Function.comp, lessPos]
      exact decide_eq_false (by omega)
  | some place =>
    obtain ⟨inside, here, -⟩ := List.findIdx?_eq_some_iff_getElem.mp found
    have present : front.any chosen = true := List.any_eq_true.mpr ⟨_, List.getElem_mem inside, here⟩
    rw [present, Option.some_or, Option.map_some]
    exact decide_eq_true (by omega)

private theorem findIdx_of_not_mem (free : c ∉ rest) : rest.findIdx? (· == c) = none := by
  rw [List.findIdx?_eq_none_iff]
  intro other member
  exact beq_eq_false_iff_ne.mpr fun same => free (same ▸ member)

theorem findIdx_append_cons (free : c ∉ front) : (front ++ c :: rest).findIdx? (· == c) = some front.length := by
  rw [List.findIdx?_append, findIdx_of_not_mem free, Option.none_or, List.findIdx?_cons, if_pos (beq_self_eq_true c)]
  simp

theorem forall_of_all {property : Char → Prop} [DecidablePred property] {text : List Char}
    (all : text.all (fun c => decide (property c)) = true) : ∀ c ∈ text, property c := fun c member =>
  of_decide_eq_true (List.all_eq_true.mp all c member)

theorem findFrom_append (front rest : List Char) :
    findFrom c (front ++ rest) front.length = (rest.findIdx? (· == c)).map (front.length + ·) := by
  rw [findFrom, List.drop_left]

theorem findFrom_eq_none_iff : findFrom c (front ++ rest) front.length = none ↔ c ∉ rest := by
  rw [findFrom_append, Option.map_eq_none_iff, List.findIdx?_eq_none_iff]
  constructor
  · intro absent member
    exact absurd (absent c member) (by simp)
  · intro free other member
    exact beq_eq_false_iff_ne.mpr fun same => free (same ▸ member)

private theorem findFirstNotOf_eq_none_iff {set : List Char} :
    findFirstNotOf set (front ++ rest) front.length = none ↔ ∀ c ∈ rest, c ∈ set := by
  rw [findFirstNotOf, List.drop_left, Option.map_eq_none_iff, List.findIdx?_eq_none_iff]
  simp

theorem throwIf_ok {condition : Prop} [Decidable condition] {error : String} :
    throwIf condition error = .ok () ↔ ¬ condition := by
  unfold throwIf
  split
  case isTrue holds => exact iff_of_false (by simp [throw, throwThe, MonadExceptOf.throw]) (not_not_intro holds)
  case isFalse fails => exact iff_of_true rfl fails

theorem then_ok {first second : Except String Unit} :
    (do first; second) = .ok () ↔ first = .ok () ∧ second = .ok () := by
  cases first with
  | error error => exact iff_of_false (by simp [bind, Except.bind]) (by simp)
  | ok done => exact ⟨fun after => ⟨rfl, after⟩, fun both => both.2⟩

theorem behind_iff {front rest : List Char} : ¬ (front ++ rest).length ≤ front.length ↔ rest ≠ [] := by
  rw [List.length_append, ← List.length_pos_iff]
  omega

private theorem checkPort_ok (front port : List Char) : checkPort (front ++ ':' :: port) front.length = .ok () ↔
    port ≠ [] ∧ ∀ c ∈ port, c ∈ portCharacters := by
  have shifted : front ++ ':' :: port = (front ++ [':']) ++ port := by simp
  have place : front.length + 1 = (front ++ [':']).length := by simp
  rw [checkPort, shifted, place]
  simp only [then_ok, throwIf_ok, not_not, findFirstNotOf_eq_none_iff, behind_iff]

private theorem any_slash (text : List Char) : text.any (· == '/') = false ↔ '/' ∉ text := by
  rw [← Bool.not_eq_true, List.any_eq_true]
  simp

private theorem getLast_append (proper : rest ≠ []) (free : c ∉ rest) : (front ++ rest).getLast? ≠ some c := by
  rw [List.getLast?_append]
  cases last : rest.getLast? with
  | none => exact absurd (List.getLast?_eq_none_iff.mp last) proper
  | some other =>
    intro same
    cases same
    exact free (List.mem_of_getLast? last)

/-- The host is what is in front of the port. -/
theorem checkHost_ok (front : List Char) {host : List Char} (undivided : ':' ∉ host) (port : Option (List Char)) :
    checkHost (front ++ (host ++ port.elim [] (':' :: ·))) front.length = .ok () ↔
      '/' ∉ host ∧ (host ≠ [] ∨ port ≠ none) ∧
        ∀ text, port = some text → text ≠ [] ∧ ∀ c ∈ text, c ∈ portCharacters := by
  rw [checkHost]
  simp only [then_ok, throwIf_ok, behind_iff]
  cases port with
  | none =>
    have here : findFrom ':' (front ++ host) front.length = none := findFrom_eq_none_iff.mpr undivided
    have slash : lessPos (findFrom '/' (front ++ host) front.length) none = true ↔ '/' ∈ host := by
      rw [← not_iff_not, ← findFrom_eq_none_iff]
      cases findFrom '/' (front ++ host) front.length <;> simp [lessPos]
    simp only [Option.elim_none, List.append_nil, here, slash]
    constructor
    · rintro ⟨proper, free, -, -⟩
      exact ⟨free, .inl proper, by simp⟩
    · rintro ⟨free, proper, -⟩
      have proper : host ≠ [] := proper.resolve_right (by simp)
      exact ⟨proper, free, trivial, getLast_append proper free⟩
  | some port =>
    have here : findFrom ':' (front ++ (host ++ ':' :: port)) front.length = some (front.length + host.length) := by
      rw [findFrom_append, findIdx_append_cons undivided, Option.map_some]
    have slash : lessPos (findFrom '/' (front ++ (host ++ ':' :: port)) front.length)
        (some (front.length + host.length)) = host.any (· == '/') := by
      rw [findFrom_append, lessPos_findIdx]
    have checked := checkPort_ok (front ++ host) port
    rw [List.length_append, List.append_assoc] at checked
    simp only [Option.elim_some, here, slash, Bool.not_eq_true, any_slash, checked]
    constructor
    · rintro ⟨-, free, digits, -⟩
      exact ⟨free, .inr (by simp), fun text same => Option.some.inj same ▸ digits⟩
    · rintro ⟨free, -, digits⟩
      obtain ⟨proper, digits⟩ := digits port rfl
      refine ⟨by simp, free, ⟨proper, digits⟩, ?_⟩
      have split : front ++ (host ++ ':' :: port) = (front ++ host ++ [':']) ++ port := by simp
      rw [split]
      exact getLast_append proper fun slash => absurd (digits _ slash) (by decide)

/-- What the searches of the code find are the parts of the endpoint. -/
structure EndpointParts.Divided (parts : EndpointParts) : Prop where
  scheme : position "://".toList parts.text = some parts.scheme.length
  userinfo : ∀ userinfo, parts.userinfo = some userinfo → '@' ∉ userinfo
  undivided : parts.userinfo = none → '@' ∉ parts.host ++ parts.port.elim [] (':' :: ·)
  host : ':' ∉ parts.host

/-- The host begins behind the first sign that ends user information. -/
theorem hostPos_eq (front : List Char) {userinfo : Option (List Char)} {behind : List Char}
    (first : ∀ text, userinfo = some text → '@' ∉ text) (undivided : userinfo = none → '@' ∉ behind) :
    (findFrom '@' (front ++ (userinfo.elim [] (· ++ ['@']) ++ behind)) front.length).elim front.length (· + 1) =
      (front ++ userinfo.elim [] (· ++ ['@'])).length := by
  cases userinfo with
  | none =>
    have absent : findFrom '@' (front ++ behind) front.length = none := findFrom_eq_none_iff.mpr (undivided rfl)
    simp [absent]
  | some text =>
    have here : findFrom '@' (front ++ (text ++ '@' :: behind)) front.length = some (front.length + text.length) := by
      rw [findFrom_append, findIdx_append_cons (first text rfl), Option.map_some]
    simp [here, Nat.add_assoc]

private theorem findFrom_start {text : List Char} : findFrom c text 0 = none ↔ c ∉ text :=
  @findFrom_eq_none_iff [] text c

private theorem checkScheme (scheme rest : List Char) :
    ¬ lessPos (findFirstNotOf schemeCharacters (scheme ++ rest) 0) (some scheme.length) = true ↔
      ∀ c ∈ scheme, c ∈ schemeCharacters := by
  have first := lessPos_findIdx (! schemeCharacters.contains ·) 0 scheme rest
  rw [Nat.zero_add] at first
  rw [findFirstNotOf, List.drop_zero, first, List.any_eq_true]
  simp

namespace EndpointParts

variable {parts : EndpointParts}

theorem text_eq (parts : EndpointParts) : parts.text = (parts.scheme ++ "://".toList) ++
    (parts.userinfo.elim [] (· ++ ['@']) ++ (parts.host ++ parts.port.elim [] (':' :: ·))) := rfl

private theorem authority_eq_nil_iff : parts.authority = [] ↔ parts.userinfo = none ∧ parts.host = [] ∧ parts.port = none := by
  rw [authority]
  cases parts.userinfo <;> cases parts.port <;> simp

private theorem mem_text_iff (apart : c ∉ "://".toList ∧ c ≠ '@') : c ∈ parts.text ↔ c ∈ parts.scheme ∨
    (∃ text, parts.userinfo = some text ∧ c ∈ text) ∨ c ∈ parts.host ∨ ∃ text, parts.port = some text ∧ c ∈ text := by
  have colon : c ≠ ':' := fun same => apart.1 (by rw [same]; decide)
  rw [text_eq]
  simp only [List.mem_append, apart.1, or_false]
  cases parts.userinfo <;> cases parts.port <;> simp [apart.2, colon]

end EndpointParts

private theorem checkEndpoint_ok {parts : EndpointParts} (divided : parts.Divided) :
    checkEndpoint parts.text = .ok () ↔ parts.Accepted := by
  obtain ⟨scheme, userinfo, undivided, host⟩ := divided
  have start : parts.scheme.length + 3 = (parts.scheme ++ "://".toList).length := by
    rw [List.length_append]
    rfl
  have place := hostPos_eq (parts.scheme ++ "://".toList) userinfo undivided
  have checked := checkHost_ok (parts.scheme ++ "://".toList ++ parts.userinfo.elim [] (· ++ ['@'])) host parts.port
  rw [List.append_assoc, ← EndpointParts.text_eq] at checked
  rw [← EndpointParts.text_eq] at place
  rw [checkEndpoint, scheme]
  simp only [then_ok, throwIf_ok, start, place, checked, findFrom_start, not_not]
  rw [EndpointParts.text, List.append_assoc, checkScheme, ← List.append_assoc, behind_iff, ← EndpointParts.text,
    EndpointParts.mem_text_iff (by decide), EndpointParts.mem_text_iff (by decide)]
  constructor
  · rintro ⟨proper, letters, -, query, fragment, slash, placed, digits⟩
    simp only [not_or, not_exists, not_and] at query fragment
    constructor
    · exact ⟨fun none => proper (List.length_eq_zero_iff.mpr none), letters⟩
    · intro text here c member
      rcases List.mem_cons.mp member with rfl | member
      · exact query.2.1 text here
      · rcases List.mem_cons.mp member with rfl | member
        · exact fragment.2.1 text here
        · exact List.mem_singleton.mp member ▸ userinfo text here
    · simpa using ⟨slash, host, query.2.2.1, fragment.2.2.1⟩
    · intro none
      exact fun member => undivided none (List.mem_append_left _ member)
    · exact placed
    · exact digits
  · rintro ⟨⟨proper, letters⟩, user, hosts, -, placed, digits⟩
    have outside (c : Char) (letter : c ∉ schemeCharacters) (digit : c ∉ portCharacters) (forUser : c ∈ ['?', '#', '@'])
        (forHost : c ∈ ['/', ':', '?', '#']) : ¬(c ∈ parts.scheme ∨
        (∃ text, parts.userinfo = some text ∧ c ∈ text) ∨ c ∈ parts.host ∨
          ∃ text, parts.port = some text ∧ c ∈ text) := by
      rintro (inside | ⟨text, here, inside⟩ | inside | ⟨text, here, inside⟩)
      · exact letter (letters c inside)
      · exact user text here c forUser inside
      · exact hosts c forHost inside
      · exact digit ((digits text here).2 c inside)
    refine ⟨fun none => proper (List.length_eq_zero_iff.mp none), letters, fun nothing => ?_,
      outside '?' (by decide) (by decide) (by decide) (by decide),
      outside '#' (by decide) (by decide) (by decide) (by decide), hosts '/' (by decide), placed, digits⟩
    obtain ⟨-, none, absent⟩ := EndpointParts.authority_eq_nil_iff.mp nothing
    exact placed.elim (· none) (· absent)

private theorem position_cons (text : List Char) (c : Char) (part : List Char) (apart : part.head? ≠ some c) (proper : part ≠ []) :
    position part (c :: text) = (position part text).map (· + 1) := by
  cases part with
  | nil => exact absurd rfl proper
  | cons first others =>
    have different : (first :: others).isPrefixOf (c :: text) = false := by
      simp only [List.head?_cons, ne_eq, Option.some.injEq] at apart
      simp [List.isPrefixOf, apart]
    rw [position, List.tails_cons, List.findIdx?_cons, different, position]
    rfl

private theorem position_append {part : List Char} (proper : part ≠ []) (rest : List Char) : position part (part ++ rest) = some 0 := by
  cases part with
  | nil => exact absurd rfl proper
  | cons first others =>
    have here : (first :: others).isPrefixOf (first :: (others ++ rest)) = true :=
      List.isPrefixOf_iff_prefix.mpr (List.prefix_append (first :: others) rest)
    rw [position, List.cons_append, List.tails_cons, List.findIdx?_cons, here, if_pos rfl]

/-- The first separator is behind what holds no colon. -/
theorem position_scheme {scheme : List Char} (free : ':' ∉ scheme) (rest : List Char) :
    position "://".toList (scheme ++ "://".toList ++ rest) = some scheme.length := by
  induction scheme with
  | nil => exact position_append (by decide) rest
  | cons c scheme ih =>
    rw [List.mem_cons, not_or] at free
    rw [List.cons_append, List.cons_append, position_cons, ih free.2]
    · rfl
    · intro same
      exact free.1 (Option.some.inj same)
    · decide

private theorem position_split {part text : List Char} {place : Nat} (found : position part text = some place) :
    ∃ front rest, text = front ++ part ++ rest ∧ front.length = place := by
  obtain ⟨inside, here, -⟩ := List.findIdx?_eq_some_iff_getElem.mp found
  rw [List.getElem_tails, List.isPrefixOf_iff_prefix] at here
  obtain ⟨rest, same⟩ := here
  rw [List.length_tails] at inside
  refine ⟨text.take place, rest, ?_, List.length_take_of_le (by omega)⟩
  rw [List.append_assoc, same, List.take_append_drop]

/-- A text is what is in front of a separator, and what is behind it if there is one. -/
theorem exists_behind (c : Char) (text : List Char) :
    ∃ (front : List Char) (behind : Option (List Char)), c ∉ front ∧ text = front ++ behind.elim [] (c :: ·) := by
  by_cases member : c ∈ text
  · obtain ⟨front, behind, same, free⟩ := List.eq_append_cons_of_mem member
    exact ⟨front, some behind, free, same⟩
  · exact ⟨text, none, member, by simp⟩

private theorem exists_divided {text : List Char} {place : Nat} (found : position "://".toList text = some place) :
    ∃ parts : EndpointParts, parts.Divided ∧ parts.text = text := by
  obtain ⟨scheme, rest, rfl, rfl⟩ := position_split found
  obtain ⟨front, behind, free, rfl⟩ := exists_behind '@' rest
  cases behind with
  | none =>
    obtain ⟨host, port, undivided, rfl⟩ := exists_behind ':' front
    refine ⟨⟨scheme, none, host, port⟩, ⟨?_, by simp, fun _ => free, undivided⟩, ?_⟩
    all_goals simp_all [EndpointParts.text, EndpointParts.authority]
  | some behind =>
    obtain ⟨host, port, undivided, rfl⟩ := exists_behind ':' behind
    refine ⟨⟨scheme, some front, host, port⟩, ⟨?_, by simpa using free, by simp, undivided⟩, ?_⟩
    all_goals simp_all [EndpointParts.text, EndpointParts.authority]

/-- Texts that are cut at their first separators are equal in both of their parts. -/
theorem behind_unique {first second : List Char} {firstRest secondRest : Option (List Char)} (free : c ∉ first)
    (free' : c ∉ second) (same : first ++ firstRest.elim [] (c :: ·) = second ++ secondRest.elim [] (c :: ·)) :
    first = second ∧ firstRest = secondRest := by
  cases firstRest with
  | none =>
    cases secondRest with
    | none => simpa using same
    | some rest =>
      rw [Option.elim_none, List.append_nil] at same
      exact absurd (same ▸ List.mem_append_right _ (.head _)) free
  | some rest =>
    cases secondRest with
    | none =>
      rw [Option.elim_none, List.append_nil] at same
      exact absurd (same ▸ List.mem_append_right _ (.head _)) free'
    | some rest' =>
      have lengths : first.length = second.length := by
        have place := @findIdx_append_cons _ rest _ free
        rw [Option.elim_some, Option.elim_some] at same
        rw [same, findIdx_append_cons free'] at place
        exact (Option.some.inj place).symm
      obtain ⟨fronts, behind⟩ := List.append_inj same lengths
      exact ⟨fronts, congrArg some (List.cons.inj behind).2⟩

namespace EndpointParts

theorem Accepted.divided {parts : EndpointParts} (accepted : parts.Accepted) : parts.Divided := by
  constructor
  · exact position_scheme (fun colon => absurd (accepted.scheme.2 _ colon) (by decide)) parts.authority
  · exact fun text here => accepted.userinfo text here '@' (by decide)
  · intro none member
    rcases List.mem_append.mp member with member | member
    · exact accepted.undivided none member
    · cases port : parts.port with
      | none => simp [port] at member
      | some digits =>
        rw [port, Option.elim_some] at member
        rcases List.mem_cons.mp member with same | member
        · exact absurd same (by decide)
        · exact absurd ((accepted.port digits port).2 _ member) (by decide)
  · exact accepted.host ':' (by decide)

theorem Divided.unique {first second : EndpointParts} (divided : first.Divided) (divided' : second.Divided)
    (same : first.text = second.text) : first = second := by
  have place : first.scheme.length = second.scheme.length := by
    have := divided.scheme.symm.trans ((congrArg _ same).trans divided'.scheme)
    exact Option.some.inj this
  obtain ⟨schemes, behind⟩ := List.append_inj same (by simp [place])
  have schemes := List.append_cancel_right schemes
  have users : first.userinfo = second.userinfo ∧
      first.host ++ first.port.elim [] (':' :: ·) = second.host ++ second.port.elim [] (':' :: ·) := by
    unfold authority at behind
    cases user : first.userinfo with
    | none =>
      cases user' : second.userinfo with
      | none => exact ⟨rfl, by simpa [user, user'] using behind⟩
      | some text =>
        rw [user, user', Option.elim_none, List.nil_append] at behind
        exact absurd (behind ▸ by simp) (divided.undivided user)
    | some text =>
      cases user' : second.userinfo with
      | none =>
        rw [user, user', Option.elim_none, List.nil_append] at behind
        exact absurd (behind ▸ by simp) (divided'.undivided user')
      | some text' =>
        rw [user, user', Option.elim_some, Option.elim_some, List.append_assoc, List.append_assoc] at behind
        have parts := @behind_unique '@' text text' (some _) (some _) (divided.userinfo text user)
          (divided'.userinfo text' user') behind
        exact ⟨congrArg some parts.1, Option.some.inj parts.2⟩
  obtain ⟨hosts, ports⟩ := behind_unique divided.host divided'.host users.2
  cases first
  cases second
  simp_all

private theorem mem_of_range {set : List Char} {low count : Nat} (each : ∀ n ∈ List.range' low count, Char.ofNat n ∈ set)
    (above : low ≤ c.toNat) (below : c.toNat < low + count) : c ∈ set := by
  have here := each c.toNat (List.mem_range'_1.mpr ⟨above, below⟩)
  rwa [Char.ofNat_toNat] at here

theorem isDigit_iff (c : Char) : c.isDigit ↔ c ∈ portCharacters := by
  constructor
  · intro digit
    simp only [Char.isDigit, ge_iff_le, Bool.and_eq_true, decide_eq_true_eq, UInt32.le_iff_toNat_le] at digit
    exact @mem_of_range _ portCharacters 48 10 (by decide) digit.1 (Nat.lt_succ_of_le digit.2)
  · exact @forall_of_all (fun c => c.isDigit = true) _ portCharacters (by decide) c

private theorem isLower_iff (c : Char) : c.isLower ∨ c.isDigit ∨ c = '+' ∨ c = '.' ∨ c = '-' ↔ c ∈ schemeCharacters := by
  constructor
  · rintro (lower | digit | rfl | rfl | rfl)
    · delta Char.isLower at lower
      simp only [ge_iff_le, Bool.and_eq_true, decide_eq_true_eq, UInt32.le_iff_toNat_le] at lower
      exact @mem_of_range _ schemeCharacters 97 26 (by decide) lower.1 (Nat.lt_succ_of_le lower.2)
    · exact @forall_of_all (· ∈ schemeCharacters) _ portCharacters (by decide) c ((isDigit_iff c).mp digit)
    all_goals decide
  · exact @forall_of_all (fun c => c.isLower = true ∨ c.isDigit = true ∨ c = '+' ∨ c = '.' ∨ c = '-') _
      schemeCharacters (by decide) c

/-- The grammar is what is accepted without the parts of another kind. -/
theorem valid_iff {parts : EndpointParts} : parts.Valid ↔ parts.Accepted ∧ parts.Plain := by
  constructor
  · intro valid
    refine ⟨⟨?_, ?_, ?_, ?_, ?_, ?_⟩, ?_, ?_⟩
    · exact ⟨valid.scheme.1, fun c member => (isLower_iff c).mp (valid.scheme.2 c member)⟩
    · exact fun text here c member => valid.userinfo text here c (List.mem_cons_of_mem _ member)
    · exact fun c member => valid.host.2 c (List.mem_append_left ['@'] member)
    · exact fun _ => valid.host.2 '@' (by decide)
    · exact .inl valid.host.1
    · exact fun text here => (valid.port text here).imp_right fun digits c member => (isDigit_iff c).mp (digits c member)
    · exact fun text here => valid.userinfo text here '/' (by decide)
    · exact ⟨valid.host.1, valid.host.2 '@' (by decide)⟩
  · rintro ⟨accepted, plain⟩
    constructor
    · exact ⟨accepted.scheme.1, fun c member => (isLower_iff c).mpr (accepted.scheme.2 c member)⟩
    · intro text here c member
      rcases List.mem_cons.mp member with rfl | member
      · exact plain.userinfo text here
      · exact accepted.userinfo text here c member
    · refine ⟨plain.host.1, fun c member => ?_⟩
      rcases List.mem_append.mp (show c ∈ ['/', ':', '?', '#'] ++ ['@'] from member) with member | member
      · exact accepted.host c member
      · exact List.mem_singleton.mp member ▸ plain.host.2
    · exact fun text here => (accepted.port text here).imp_right fun digits c member => (isDigit_iff c).mpr (digits c member)

end EndpointParts

/-- The texts that pass the checks. -/
theorem checkEndpoint_iff (text : List Char) :
    checkEndpoint text = .ok () ↔ ∃ parts : EndpointParts, parts.Accepted ∧ parts.text = text := by
  constructor
  · intro passed
    cases found : position "://".toList text with
    | none =>
      rw [checkEndpoint, found] at passed
      cases passed
    | some place =>
      obtain ⟨parts, divided, rfl⟩ := exists_divided found
      exact ⟨parts, (checkEndpoint_ok divided).mp passed, rfl⟩
  · rintro ⟨parts, accepted, rfl⟩
    exact (checkEndpoint_ok accepted.divided).mpr accepted

variable (endpointPath : String) (file : EndpointFile)

/-- The text is returned if it is in the grammar, and there is an error otherwise. -/
def FollowsGrammar (text : List Char) : Prop :=
  (getEndpoint endpointPath file text = .ok text ↔ ∃ parts : EndpointParts, parts.Valid ∧ parts.text = text) ∧
    ((¬∃ parts : EndpointParts, parts.Valid ∧ parts.text = text) →
      ∃ error, getEndpoint endpointPath file text = .error error)

/-- An accepted text has no slash in its user information, no sign of another one in its host, and
a host. An empty text is replaced by what is read, which is then not accepted. -/
def Unmistaken (text : List Char) : Prop :=
  (∀ parts : EndpointParts, parts.Accepted → parts.text = text → parts.Plain) ∧
    (text = [] → ∀ read, readEndpoint endpointPath file = .ok read →
      ¬∃ parts : EndpointParts, parts.Accepted ∧ parts.text = read)

variable {endpointPath file}

private theorem getEndpoint_set {text : List Char} (set : text ≠ []) :
    getEndpoint endpointPath file text = (checkEndpoint text).map fun _ => text := by
  rw [getEndpoint, if_neg set]
  rfl

private theorem getEndpoint_unset : getEndpoint endpointPath file [] =
    (readEndpoint endpointPath file).bind fun read => (checkEndpoint read).map fun _ => read := by
  rw [getEndpoint, if_pos rfl]
  rfl

private theorem EndpointParts.text_ne_nil (parts : EndpointParts) : parts.text ≠ [] := by
  rw [text]
  simp

private theorem checkEndpoint_cases (text : List Char) :
    (checkEndpoint text = .ok () ∧ ∃ parts : EndpointParts, parts.Accepted ∧ parts.text = text) ∨
      (∃ error, checkEndpoint text = .error error) ∧ ¬∃ parts : EndpointParts, parts.Accepted ∧ parts.text = text := by
  have decided := checkEndpoint_iff text
  cases passed : checkEndpoint text with
  | ok done => exact .inl ⟨rfl, decided.mp passed⟩
  | error error => exact .inr ⟨⟨error, rfl⟩, fun parts => by simp [passed] at decided; exact absurd parts (by simpa using decided)⟩

/-- The parts of an accepted text, which are the only ones, decide whether it is in the grammar. -/
theorem valid_text_iff {parts : EndpointParts} (accepted : parts.Accepted) :
    (∃ valid : EndpointParts, valid.Valid ∧ valid.text = parts.text) ↔ parts.Plain := by
  constructor
  · rintro ⟨valid, grammar, same⟩
    obtain ⟨accepted', plain⟩ := EndpointParts.valid_iff.mp grammar
    exact accepted'.divided.unique accepted.divided same ▸ plain
  · exact fun plain => ⟨parts, EndpointParts.valid_iff.mpr ⟨accepted, plain⟩, rfl⟩

private theorem followsGrammar_unset : FollowsGrammar endpointPath file [] ↔ Unmistaken endpointPath file [] := by
  have none (parts : EndpointParts) (same : parts.text = []) : False := parts.text_ne_nil same
  constructor
  · rintro ⟨-, refused⟩
    refine ⟨fun parts _ same => (none parts same).elim, fun _ read here found => ?_⟩
    obtain ⟨error, thrown⟩ := refused fun ⟨parts, _, same⟩ => none parts same
    rw [getEndpoint_unset, here, Except.bind, (checkEndpoint_iff read).mpr found] at thrown
    cases thrown
  · rintro ⟨-, refused⟩
    have thrown : ∃ error, getEndpoint endpointPath file [] = .error error := by
      rw [getEndpoint_unset]
      cases here : readEndpoint endpointPath file with
      | error error => exact ⟨error, rfl⟩
      | ok read =>
        obtain ⟨_, found⟩ | ⟨⟨error, thrown⟩, -⟩ := checkEndpoint_cases read
        · exact absurd found (refused rfl read here)
        · exact ⟨error, by rw [Except.bind, thrown]; rfl⟩
    refine ⟨?_, fun _ => thrown⟩
    obtain ⟨error, thrown⟩ := thrown
    rw [thrown]
    exact iff_of_false (by simp) fun ⟨parts, _, same⟩ => none parts same

/-- The validation follows its grammar if and only if no text with a mistaken part is set. -/
theorem getEndpoint_iff (endpointPath : String) (file : EndpointFile) (text : List Char) :
    FollowsGrammar endpointPath file text ↔ Unmistaken endpointPath file text := by
  by_cases set : text = []
  · subst set
    exact followsGrammar_unset
  · obtain ⟨passed, parts, accepted, rfl⟩ | ⟨⟨error, thrown⟩, refused⟩ := checkEndpoint_cases text
    · have grammar := valid_text_iff accepted
      have returned : getEndpoint endpointPath file parts.text = .ok parts.text := by
        rw [getEndpoint_set set, passed]
        rfl
      have alone : Unmistaken endpointPath file parts.text ↔ parts.Plain := by
        constructor
        · exact fun unmistaken => unmistaken.1 parts accepted rfl
        · intro plain
          refine ⟨fun other accepted' same => ?_, fun unset => absurd unset set⟩
          exact accepted'.divided.unique accepted.divided same ▸ plain
      rw [alone, FollowsGrammar, returned, grammar]
      simp
    · have none : ¬∃ parts : EndpointParts, parts.Valid ∧ parts.text = text := by
        rintro ⟨parts, valid, same⟩
        exact refused ⟨parts, (EndpointParts.valid_iff.mp valid).1, same⟩
      have thrown : getEndpoint endpointPath file text = .error error := by
        rw [getEndpoint_set set, thrown]
        rfl
      refine iff_of_true ⟨?_, fun _ => ⟨error, thrown⟩⟩ ⟨?_, fun unset => absurd unset set⟩
      · rw [thrown]
        exact iff_of_false (by simp) none
      · exact fun parts accepted same => absurd ⟨parts, accepted, same⟩ refused

/-- An endpoint is accepted whose host is nothing, one with a slash in front of its host, and one
whose host is not what is behind its last sign of user information. -/
theorem getEndpoint_accepts :
    ¬ FollowsGrammar "" .doesNotExist "http://:80".toList ∧
      getEndpoint "" .doesNotExist "http://:80".toList = .ok "http://:80".toList ∧
      getEndpoint "" .doesNotExist "http://a/b@c".toList = .ok "http://a/b@c".toList ∧
      getEndpoint "" .doesNotExist "http://a@b@c".toList = .ok "http://a@b@c".toList := by
  refine ⟨fun follows => ?_, by decide, by decide, by decide⟩
  let parts : EndpointParts := ⟨"http".toList, none, [], some "80".toList⟩
  have accepted : parts.Accepted := by
    refine ⟨⟨by decide, forall_of_all (by decide)⟩, by simp [parts], by simp [parts], by simp [parts], by decide,
      fun port same => ?_⟩
    cases same
    exact ⟨by decide, forall_of_all (by decide)⟩
  have grammar : ∃ valid : EndpointParts, valid.Valid ∧ valid.text = parts.text := follows.1.mp (by decide)
  exact ((valid_text_iff accepted).mp grammar).host.1 rfl

end Slate
