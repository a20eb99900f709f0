import Slate.Configuration

/-! What a configuration file and the files that it includes assign, read in the order of their
text, and when the parsing follows it. -/

namespace Slate
open Library

/-- The value that a line of the form `name=value` gives. -/
def valueOf (name line : List Char) : Option (List Char) :=
  if name ++ ['='] <+: line then some (line.drop (name.length + 1)) else none

/-- The lines that are reached one after another, and whether they end at a file that cannot be included. -/
structure Reading where
  reached : List (List Char)
  aborted : Bool

local instance lawfulPaths : LawfulBEq (List Char) := List.instLawfulBEq

/-- How many of the files are not yet open. -/
def unread (disk : ConfigurationFiles) (chain : List (List Char)) : Nat :=
  (disk.keys.filter fun path => path ∉ chain).length

private theorem unread_lt {disk : ConfigurationFiles} {chain lines : List (List Char)} {path : List Char} (fresh : path ∉ chain)
    (found : disk.lookup path = some lines) : unread disk (chain ++ [path]) < unread disk chain := by
  have known : path ∈ disk.keys := by
    rw [← AList.mem_keys, ← AList.lookup_isSome, found]
    rfl
  have split : disk.keys.filter (fun other => other ∉ chain ++ [path]) =
      (disk.keys.filter fun other => other ∉ chain).filter (· ≠ path) := by
    rw [List.filter_filter]
    apply List.filter_congr
    intro other _
    simp [and_comm]
  rw [unread, split, unread, List.length_filter_lt_length_iff_exists]
  exact ⟨path, List.mem_filter.mpr ⟨known, decide_eq_true fresh⟩, by simp⟩

mutual

/-- The lines from the start of a file on, which is included from those of the chain. -/
def readFile (disk : ConfigurationFiles) (chain : List (List Char)) (path : List Char) : Reading :=
  if _fresh : path ∈ chain then ⟨[], true⟩
  else
    match _found : disk.lookup path with
    | none => ⟨[], true⟩
    | some lines => readLines disk (chain ++ [path]) lines
termination_by (unread disk chain, 0)
decreasing_by exact Prod.Lex.left _ _ (unread_lt _fresh _found)

/-- The lines of a file, with those of each file that is included behind the line that includes it. -/
def readLines (disk : ConfigurationFiles) (chain : List (List Char)) : List (List Char) → Reading
  | [] => ⟨[], false⟩
  | line :: lines =>
    let others := readLines disk chain lines
    match valueOf "config".toList line with
    | none => ⟨line :: others.reached, others.aborted⟩
    | some path =>
      let included := readFile disk chain path
      if included.aborted then ⟨line :: included.reached, true⟩
      else ⟨line :: (included.reached ++ others.reached), others.aborted⟩
termination_by lines => (unread disk chain, lines.length + 1)

end

/-- The value of the last line that gives one. -/
def lastValue (reached : List (List Char)) (name initial : List Char) : List Char :=
  (reached.filterMap (valueOf name)).getLastD initial

/-- The line has no value, and yet it is what makes the code assign or include something. -/
def Bare (line : List Char) : Prop := '=' ∉ line ∧ (line ∈ configurationOptions ∨ line = "config".toList)

/-- The parsing ends. It is aborted when the text reaches a file that cannot be included, and
otherwise each option has its last value. No line without a value is acted on. -/
def FollowsText (disk : ConfigurationFiles) (path : List Char) (values : List Char → List Char) (errors : List String) : Prop :=
  ∃ enough, ∀ fuel, enough ≤ fuel →
    match parseFile disk fuel [path] ⟨values, errors, []⟩ with
    | .unfinished => False
    | .fatal _ after => (readFile disk [] path).aborted = true ∧ ∀ line ∈ after.acted, '=' ∈ line
    | .finished after => (readFile disk [] path).aborted = false ∧
      (∀ name ∈ configurationOptions, after.values name = lastValue (readFile disk [] path).reached name (values name)) ∧
        ∀ line ∈ after.acted, '=' ∈ line

variable {line name : List Char}

private theorem takeWhile_append_cons {text rest : List Char} (free : '=' ∉ text) :
    (text ++ '=' :: rest).takeWhile (· ≠ '=') = text := by
  rw [List.takeWhile_append_of_pos, List.takeWhile_cons_of_neg (by simp), List.append_nil]
  intro c member
  exact decide_eq_true fun same => free (same ▸ member)

/-- A line gives a value to the name in front of its first sign of equality. -/
theorem valueOf_eq (free : '=' ∉ name) (line : List Char) :
    valueOf name line = if '=' ∈ line ∧ optName line = name then some (optValue line) else none := by
  unfold valueOf optValue optName
  by_cases given : name ++ ['='] <+: line
  · obtain ⟨rest, rfl⟩ := given
    have whole : name ++ ['='] ++ rest = name ++ '=' :: rest := by simp
    have behind : (name ++ '=' :: rest).drop (name.length + 1) = rest := by
      rw [← whole]
      exact List.drop_left' (by simp)
    rw [if_pos (List.prefix_append _ rest), whole, takeWhile_append_cons free, behind]
    simp
  · rw [if_neg given, if_neg]
    rintro ⟨member, rfl⟩
    obtain ⟨front, behind, same, absent⟩ := List.eq_append_cons_of_mem member
    rw [same, takeWhile_append_cons absent] at given
    exact given ⟨behind, by simp⟩

theorem option_free (known : name ∈ configurationOptions) : '=' ∉ name := by
  have each : ∀ name ∈ configurationOptions, '=' ∉ name := by decide
  exact each name known

/-- What the parsing has done, told by the lines that the text reaches. -/
structure Follows (reading : Reading) (before after : Configuration) (aborted : Bool) : Prop where
  kept : ∀ line ∈ before.acted, line ∈ after.acted
  bare : (∃ line ∈ reading.reached, Bare line) → ∃ line ∈ after.acted, '=' ∉ line
  proper : (∀ line ∈ reading.reached, ¬ Bare line) → reading.aborted = aborted ∧
    (∀ name ∈ configurationOptions, after.values name = lastValue reading.reached name (before.values name)) ∧
      ∀ line ∈ after.acted, line ∈ before.acted ∨ '=' ∈ line

def Parsed.Follows (reading : Reading) (before : Configuration) : Parsed → Prop
  | unfinished => False
  | fatal _ after => Slate.Follows reading before after true
  | finished after => Slate.Follows reading before after false

variable {reading first second : Reading} {before before' : Configuration} {parsed : Parsed}

/-- Once a line without a value has been acted on, no more is asked. -/
theorem Follows.of_acted {after : Configuration} {aborted : Bool} (kept : ∀ line ∈ before.acted, line ∈ after.acted)
    (acted : ∃ line ∈ after.acted, '=' ∉ line) (bare : ∃ line ∈ reading.reached, Bare line) :
    Follows reading before after aborted := by
  refine ⟨kept, fun _ => acted, fun none => ?_⟩
  obtain ⟨line, member, here⟩ := bare
  exact absurd here (none line member)

theorem Parsed.Follows.of_acted (follows : parsed.Follows first before') (kept : ∀ line ∈ before.acted, line ∈ before'.acted)
    (acted : ∃ line ∈ before'.acted, '=' ∉ line) (bare : ∃ line ∈ reading.reached, Bare line) :
    parsed.Follows reading before := by
  obtain ⟨line, member, free⟩ := acted
  cases parsed with
  | unfinished => exact follows
  | fatal message after =>
    exact Slate.Follows.of_acted (fun other old => follows.kept other (kept other old))
      ⟨line, follows.kept line member, free⟩ bare
  | finished after =>
    exact Slate.Follows.of_acted (fun other old => follows.kept other (kept other old))
      ⟨line, follows.kept line member, free⟩ bare

private theorem lastValue_append (first second : List (List Char)) (name initial : List Char) :
    lastValue (first ++ second) name initial = lastValue second name (lastValue first name initial) := by
  unfold lastValue
  rw [List.filterMap_append]
  simp only [List.getLastD_eq_getLast?, List.getLast?_append]
  cases (second.filterMap (valueOf name)).getLast? <;> rfl

private theorem lastValue_singleton (line name initial : List Char) :
    lastValue [line] name initial = (valueOf name line).getD initial := by
  unfold lastValue
  cases here : valueOf name line <;> simp [here]

/-- The lines of two readings, of which the second is not made where the first is aborted. -/
def Reading.andThen (first second : Reading) : Reading :=
  if first.aborted then first else ⟨first.reached ++ second.reached, second.aborted⟩

/-- A reading that is not aborted as the parsing is has a bare line. -/
theorem Follows.reaches {after : Configuration} {aborted : Bool} (follows : Follows reading before after aborted)
    (differs : reading.aborted ≠ aborted) : ∃ line ∈ reading.reached, Bare line := by
  by_contra none
  exact differs (follows.proper fun line member bare => none ⟨line, member, bare⟩).1

theorem Follows.append {middle after : Configuration} {aborted : Bool} (follows : Follows first before middle false)
    (others : Follows second middle after aborted) :
    Follows ⟨first.reached ++ second.reached, second.aborted⟩ before after aborted := by
  refine ⟨fun line old => others.kept line (follows.kept line old), ?_, ?_⟩
  · rintro ⟨line, member, bare⟩
    rcases List.mem_append.mp member with earlier | later
    · obtain ⟨acted, inside, free⟩ := follows.bare ⟨line, earlier, bare⟩
      exact ⟨acted, others.kept acted inside, free⟩
    · exact others.bare ⟨line, later, bare⟩
  · intro none
    obtain ⟨-, values, acted⟩ := follows.proper fun line member => none line (List.mem_append_left _ member)
    obtain ⟨ends, values', acted'⟩ := others.proper fun line member => none line (List.mem_append_right _ member)
    refine ⟨ends, fun name known => ?_, fun line member => ?_⟩
    · rw [lastValue_append, ← values name known, values' name known]
    · rcases acted' line member with old | given
      · exact acted line old
      · exact .inr given

theorem Parsed.Follows.append {middle : Configuration} (others : parsed.Follows second middle)
    (follows : Slate.Follows first before middle false) :
    parsed.Follows ⟨first.reached ++ second.reached, second.aborted⟩ before := by
  cases parsed with
  | unfinished => exact others
  | fatal message after => exact Slate.Follows.append follows others
  | finished after => exact Slate.Follows.append follows others

theorem Parsed.Follows.andThen {next : Configuration → Parsed} (follows : parsed.Follows first before)
    (others : ∀ middle, (next middle).Follows second middle) :
    (parsed.andThen next).Follows (first.andThen second) before := by
  have among : (∃ line ∈ first.reached, Bare line) → ∃ line ∈ (first.andThen second).reached, Bare line := by
    rintro ⟨line, member, bare⟩
    unfold Reading.andThen
    split
    · exact ⟨line, member, bare⟩
    · exact ⟨line, List.mem_append_left _ member, bare⟩
  cases parsed with
  | unfinished => exact follows
  | fatal message after =>
    by_cases stopped : first.aborted
    · rw [Reading.andThen, if_pos stopped]
      exact follows
    · have bare := Slate.Follows.reaches follows stopped
      exact Slate.Follows.of_acted follows.kept (follows.bare bare) (among bare)
  | finished middle =>
    change (next middle).Follows _ _
    by_cases stopped : first.aborted
    · have bare := Slate.Follows.reaches follows (by simp [stopped])
      exact (others middle).of_acted follows.kept (follows.bare bare) (among bare)
    · have rest := others middle
      rw [Reading.andThen, if_neg stopped]
      exact rest.append follows

/-- A line that is no bare one gives its value. -/
theorem Follows.single (kept : ∀ line ∈ before.acted, line ∈ before'.acted) (plain : ¬ Bare line)
    (gives : ∀ name ∈ configurationOptions, before'.values name = (valueOf name line).getD (before.values name))
    (acted : ∀ line ∈ before'.acted, line ∈ before.acted ∨ '=' ∈ line) :
    Follows ⟨[line], false⟩ before before' false := by
  refine ⟨kept, ?_, fun _ => ⟨rfl, fun name known => ?_, acted⟩⟩
  · rintro ⟨other, member, bare⟩
    exact absurd (List.mem_singleton.mp member ▸ bare) plain
  · rw [lastValue_singleton, gives name known]

variable {disk : ConfigurationFiles} {files : List (List Char)}

theorem optName_of_free (free : '=' ∉ line) : optName line = line := by
  have all : ∀ c ∈ line, decide (c ≠ '=') = true := fun c member => decide_eq_true fun same => free (same ▸ member)
  have whole := @List.takeWhile_append_of_pos _ _ line [] all
  rwa [List.append_nil, List.takeWhile_nil, List.append_nil] at whole

theorem config_free : '=' ∉ "config".toList := by decide

private theorem config_unknown : "config".toList ∉ configurationOptions := by decide

/-- A line that assigns an option follows the text. -/
theorem follows_assign (given : '=' ∈ line) (before : Configuration) :
    Follows ⟨[line], false⟩ before (before.assign line (optName line) (optValue line)) false := by
  apply Follows.single
  · exact fun other old => List.mem_append_left _ old
  · exact fun bare => bare.1 given
  · intro name known'
    rw [valueOf_eq (option_free known')]
    by_cases same : optName line = name
    · simp [Configuration.assign, given, same]
    · have different : name ≠ optName line := fun other => same other.symm
      simp [Configuration.assign, same, different]
  · intro other member
    rcases List.mem_append.mp member with old | new
    · exact .inl old
    · exact .inr (List.mem_singleton.mp new ▸ given)

/-- A line that includes a file follows the text up to that file. -/
theorem follows_enter (config : optName line = "config".toList) (given : '=' ∈ line) (before : Configuration) :
    Follows ⟨[line], false⟩ before (before.enter line) false := by
  apply Follows.single
  · exact fun other old => List.mem_append_left _ old
  · exact fun bare => bare.1 given
  · intro name known
    have different : "config".toList ≠ name := fun same => config_unknown (same ▸ known)
    rw [valueOf_eq (option_free known), config, if_neg fun both => different both.2]
    rfl
  · intro other member
    rcases List.mem_append.mp member with old | new
    · exact .inl old
    · exact .inr (List.mem_singleton.mp new ▸ given)

/-- A line of neither kind is passed over. -/
theorem follows_ignore (unknown : optName line ∉ configurationOptions) (other : optName line ≠ "config".toList)
    (before : Configuration) (messages : List String) :
    Follows ⟨[line], false⟩ before (before.logError messages) false := by
  apply Follows.single
  · exact fun _ old => old
  · rintro ⟨free, known | config⟩
    · exact unknown ((optName_of_free free).symm ▸ known)
    · exact other ((optName_of_free free).trans config)
  · intro name known
    have different : optName line ≠ name := fun same => unknown (same.symm ▸ known)
    rw [valueOf_eq (option_free known), if_neg fun both => different both.2]
    rfl
  · exact fun _ old => .inl old

theorem readLines_cons (chain : List (List Char)) (line : List Char) (lines : List (List Char)) :
    readLines disk chain (line :: lines) = (match valueOf "config".toList line with
      | none => ⟨[line] ++ (readLines disk chain lines).reached, (readLines disk chain lines).aborted⟩
      | some path => Reading.andThen ⟨[line] ++ (readFile disk chain path).reached, (readFile disk chain path).aborted⟩
          (readLines disk chain lines)) := by
  rw [readLines]
  cases valueOf "config".toList line with
  | none => rfl
  | some path =>
    simp only [Reading.andThen]
    split
    case isTrue aborted => simp [aborted]
    case isFalse => rfl

private theorem mem_readLines (chain : List (List Char)) (line : List Char) (lines : List (List Char)) :
    line ∈ (readLines disk chain (line :: lines)).reached := by
  rw [readLines_cons]
  cases valueOf "config".toList line with
  | none => simp
  | some path =>
    simp only [Reading.andThen]
    split <;> simp

/-- The loop follows the text if the parsing of the included files does. -/
theorem follows_parseLines {parse : List (List Char) → Configuration → Parsed}
    (included : ∀ path configuration, (parse (files ++ [path]) configuration).Follows (readFile disk files path) configuration)
    (lineNumber : UInt32) (lines : List (List Char)) (before : Configuration) :
    (parseLines parse files lineNumber lines before).Follows (readLines disk files lines) before := by
  induction lines generalizing lineNumber before with
  | nil =>
    rw [readLines]
    exact ⟨fun _ old => old, by simp, fun _ => ⟨rfl, fun _ _ => rfl, fun _ old => .inl old⟩⟩
  | cons line lines ih =>
    have here : line ∈ (readLines disk files (line :: lines)).reached := mem_readLines files line lines
    rw [parseLines]
    split
    case isTrue known =>
      by_cases given : '=' ∈ line
      · have different : optName line ≠ "config".toList := fun same => config_unknown (same ▸ known)
        rw [readLines_cons, valueOf_eq config_free, if_neg fun both => different both.2]
        exact (ih _ _).append (follows_assign given before)
      · have bare : Bare line := ⟨given, .inl (optName_of_free given ▸ known)⟩
        exact (ih _ _).of_acted (fun _ old => List.mem_append_left _ old)
          ⟨line, List.mem_append_right _ (.head _), given⟩ ⟨line, here, bare⟩
    case isFalse unknown =>
      split
      case isTrue config =>
        by_cases given : '=' ∈ line
        · rw [readLines_cons, valueOf_eq config_free, if_pos ⟨given, config⟩]
          exact ((included _ _).append (follows_enter config given before)).andThen fun _ => ih _ _
        · have bare : Bare line := ⟨given, .inr (optName_of_free given ▸ config)⟩
          exact ((included _ _).andThen fun _ => ih _ _).of_acted (fun _ old => List.mem_append_left _ old)
            ⟨line, List.mem_append_right _ (.head _), given⟩ ⟨line, here, bare⟩
      case isFalse other =>
        rw [readLines_cons, valueOf_eq config_free, if_neg fun both => other both.2]
        exact (ih _ _).append (follows_ignore unknown other before _)

private theorem parseFile_concat (fuel : Nat) (chain : List (List Char)) (path : List Char) (before : Configuration) :
    parseFile disk (fuel + 1) (chain ++ [path]) before =
      if path ∈ chain then
        .fatal "Configuration parsing terminated" (before.logError
          ("Configuration file loop: " :: (chain ++ [path]).map fun file => "  " ++ .ofList file))
      else
        match disk.lookup path with
        | none => .fatal ("Unable to open " ++ .ofList path ++ " for reading") before
        | some lines => parseLines (parseFile disk fuel) (chain ++ [path]) 1 lines before := by
  have last : (chain ++ [path]).getLastD [] = path := List.getLastD_concat
  rw [parseFile, List.dropLast_concat]
  generalize (chain ++ [path]).getLastD [] = found at last ⊢
  subst last
  rfl

/-- The parsing of a file follows the text, when there is fuel for the files that are not open. -/
theorem follows_parseFile {fuel : Nat} {chain : List (List Char)} (enough : unread disk chain < fuel) (path : List Char)
    (before : Configuration) : (parseFile disk fuel (chain ++ [path]) before).Follows (readFile disk chain path) before := by
  induction fuel generalizing chain path before with
  | zero => omega
  | succ fuel ih =>
    have stopped {after : Configuration} (same : after.values = before.values) (acted : after.acted = before.acted) :
        Follows ⟨[], true⟩ before after true :=
      ⟨fun _ old => acted ▸ old, by simp, fun _ => ⟨rfl, fun _ _ => by rw [same]; rfl, fun _ old => .inl (acted ▸ old)⟩⟩
    rw [parseFile_concat, readFile]
    split
    case isTrue => exact stopped rfl rfl
    case isFalse fresh =>
      split
      case h_1 none =>
        rw [none]
        exact stopped rfl rfl
      case h_2 lines found =>
        have fewer := unread_lt fresh found
        rw [found]
        exact follows_parseLines (fun path configuration => ih (by omega) path configuration) 1 lines before

/-- The parsing ends for every disk and every file, however the files include one another. -/
theorem parseFile_ends (disk : ConfigurationFiles) {fuel : Nat} {chain : List (List Char)}
    (enough : unread disk chain < fuel) (path : List Char) (before : Configuration) :
    parseFile disk fuel (chain ++ [path]) before ≠ .unfinished := by
  have follows := follows_parseFile enough path before
  intro same
  rw [same] at follows
  exact follows

/-- The parsing follows the text if and only if no line that is reached is the bare name of an
option or of the inclusion. -/
theorem parseFile_iff (disk : ConfigurationFiles) (path : List Char) (values : List Char → List Char) (errors : List String) :
    FollowsText disk path values errors ↔ ∀ line ∈ (readFile disk [] path).reached, ¬ Bare line := by
  constructor
  · rintro ⟨enough, ends⟩ line member bare
    have follows := @follows_parseFile disk (max enough (unread disk [] + 1)) [] (by omega) path ⟨values, errors, []⟩
    have end_ := ends (max enough (unread disk [] + 1)) (by omega)
    rw [List.nil_append] at follows
    cases parsed : parseFile disk (max enough (unread disk [] + 1)) [path] ⟨values, errors, []⟩ with
    | unfinished =>
      rw [parsed] at end_
      exact end_
    | fatal message after =>
      rw [parsed] at end_ follows
      obtain ⟨acted, inside, free⟩ := Follows.bare follows ⟨line, member, bare⟩
      exact free (end_.2 acted inside)
    | finished after =>
      rw [parsed] at end_ follows
      obtain ⟨acted, inside, free⟩ := Follows.bare follows ⟨line, member, bare⟩
      exact free (end_.2.2 acted inside)
  · intro none
    refine ⟨unread disk [] + 1, fun fuel enough => ?_⟩
    have follows := @follows_parseFile disk fuel [] enough path ⟨values, errors, []⟩
    rw [List.nil_append] at follows
    cases parsed : parseFile disk fuel [path] ⟨values, errors, []⟩ with
    | unfinished =>
      rw [parsed] at follows
      exact follows
    | fatal message after =>
      rw [parsed] at follows
      obtain ⟨aborted, -, acted⟩ := Follows.proper follows none
      exact ⟨aborted, fun line member => (acted line member).resolve_left (by simp)⟩
    | finished after =>
      rw [parsed] at follows
      obtain ⟨aborted, last, acted⟩ := Follows.proper follows none
      exact ⟨aborted, last, fun line member => (acted line member).resolve_left (by simp)⟩

/-- The bare name of an option gives it its own name, and the bare name of the inclusion in the
file of that name is a loop. -/
theorem parseFile_bare :
    ¬ FollowsText (AList.insert "a".toList ["port".toList] ∅) "a".toList (fun _ => []) [] ∧
      ¬ FollowsText (AList.insert "config".toList ["config".toList] ∅) "config".toList (fun _ => []) [] := by
  constructor
  · rintro ⟨enough, ends⟩
    have end_ := ends (enough + 1) (Nat.le_succ _)
    have parsed : parseFile (AList.insert "a".toList ["port".toList] ∅) (enough + 1) ["a".toList] ⟨fun _ => [], [], []⟩ =
        .finished (Configuration.assign ⟨fun _ => [], [], []⟩ "port".toList "port".toList "port".toList) := by
      rfl
    rw [parsed] at end_
    exact absurd (end_.2.2 "port".toList (.head _)) (by decide)
  · rintro ⟨enough, ends⟩
    have end_ := ends (enough + 2) (by omega)
    have parsed : ∃ message messages,
        parseFile (AList.insert "config".toList ["config".toList] ∅) (enough + 2) ["config".toList] ⟨fun _ => [], [], []⟩ =
          .fatal message ⟨fun _ => [], messages, ["config".toList]⟩ := ⟨_, _, rfl⟩
    obtain ⟨message, messages, parsed⟩ := parsed
    rw [parsed] at end_
    exact absurd (end_.2 "config".toList (.head _)) (by decide)

end Slate
