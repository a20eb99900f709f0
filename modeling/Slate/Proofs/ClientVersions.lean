import Slate.ClientVersions
import Slate.Proofs.Quantities
import Slate.Proofs.VersionOrder

/-! The client goes through the numbers of two versions once and takes the available one
for the newer as soon as any of its numbers is the larger. That is their lexicographic
order where no other number is the smaller, and not where the versions have different lengths. -/

namespace Slate
open Library Versions

structure UpgradeDecided (client available : Version) (clientMarked availableMarked : Bool) : Prop where
  clientParsed : semverParse (client.tag clientMarked) = some client.components
  availableParsed : semverParse (available.tag availableMarked) = some available.components
  offered : upgradeOffered (client.tag clientMarked) (available.tag availableMarked) =
    some (newerVersionAvailable client.components available.components)
  exactly : newerVersionAvailable client.components available.components ↔ client.components < available.components
  irreflexive : ¬ newerVersionAvailable client.components client.components
  asymmetric : newerVersionAvailable client.components available.components →
    ¬ newerVersionAvailable available.components client.components
  agrees : newerVersionAvailable client.components available.components ↔
    ∃ result < 0, compareVersions client.bytes available.bytes = some result

/-- No two numbers in the same place are ordered against two others. Where the lengths
differ, the available version is not the newer. -/
def InStep (client available : List Nat) : Prop :=
  if client.length = available.length then
    List.Forall₂ (· ≤ ·) client available ∨ List.Forall₂ (· ≤ ·) available client
  else
    ¬ client < available

private theorem isDigit_ne {c d : Char} (digit : c.isDigit = true) (other : d.isDigit = false) : c ≠ d := by
  rintro rfl
  rw [digit] at other
  cases other

theorem stoul_digits {part : List Char} (proper : part ≠ []) (digits : ∀ c ∈ part, c.isDigit = true)
    (fits : Nat.ofDigitChars 10 part 0 < 2 ^ 64) : stoul part = some (Nat.ofDigitChars 10 part 0) := by
  obtain ⟨c, rest, rfl⟩ := List.exists_cons_of_ne_nil proper
  have first := digits c (.head _)
  have unspaced : (c :: rest).dropWhile isSpace = c :: rest :=
    List.dropWhile_cons_of_neg (by rw [isSpace_digit first]; decide)
  have plus : c ≠ '+' := isDigit_ne first (by decide)
  have minus : c ≠ '-' := isDigit_ne first (by decide)
  have all : (c :: rest).takeWhile Char.isDigit = c :: rest := List.takeWhile_eq_self_iff.mpr digits
  have value : (c :: rest).foldl (fun value digit => value * 10 + (digit.toNat - '0'.toNat)) 0 =
      Nat.ofDigitChars 10 (c :: rest) 0 := by
    rw [Nat.ofDigitChars_eq_foldl]
    simp only [Nat.mul_comm]
  rw [stoul, unspaced]
  simp only [List.head?_cons, Option.some.injEq, plus, minus, or_self, if_false, all, value, reduceCtorEq, false_or]
  rw [if_neg (Nat.not_le.mpr fits)]

/-- The version is split again into the parts that were put together. -/
theorem semverTokens_intercalate {parts : List (List Char)} (several : 2 ≤ parts.length) (plain : ∀ part ∈ parts, '.' ∉ part) :
    semverTokens (['.'].intercalate parts) = parts := by
  cases parts with
  | nil => cases several
  | cons first parts =>
    cases parts with
    | nil => exact absurd several (by simp)
    | cons second parts =>
      have dot : '.' ∈ ['.'].intercalate (first :: second :: parts) := by
        rw [List.intercalate_cons_cons]
        simp
      rw [semverTokens, if_pos dot, List.splitOn_intercalate '.' plain (List.cons_ne_nil _ _)]

private theorem mapM_stoul {parts : List (List Char)} (numbers : ∀ part ∈ parts, stoul part = some (Nat.ofDigitChars 10 part 0)) :
    parts.mapM stoul = some (parts.map fun part => Nat.ofDigitChars 10 part 0) := by
  induction parts with
  | nil => rfl
  | cons part parts ih =>
    obtain ⟨first, others⟩ := List.forall_mem_cons.mp numbers
    rw [List.mapM_cons, first, ih others]
    rfl

private theorem stripV_digits {part : List Char} (digits : ∀ c ∈ part, c.isDigit = true) (marked : Bool) :
    stripV (if marked then 'v' :: part else part) = part := by
  cases marked with
  | true => rw [if_pos rfl, stripV, if_pos (.head _), List.dropWhile_cons_of_neg (by decide), List.tail_cons]
  | false =>
    have plain : 'v' ∉ part := fun member => absurd (digits _ member) (by decide)
    rw [if_neg Bool.false_ne_true, stripV, if_neg plain]

theorem Version.semverParse_tag (version : Version) (marked : Bool) :
    semverParse (version.tag marked) = some version.components := by
  obtain ⟨parts, several, proper, digits, fits⟩ := version
  cases parts with
  | nil => cases several
  | cons first parts =>
    have tagged : (Version.mk (first :: parts) several proper digits fits).tag marked =
        ['.'].intercalate ((if marked then 'v' :: first else first) :: parts) := by
      cases parts with
      | nil => exact absurd several (by simp)
      | cons second parts =>
        rw [Version.tag, Version.text, List.intercalate_cons_cons, List.intercalate_cons_cons]
        cases marked <;> rfl
    have plain : ∀ part ∈ (if marked then 'v' :: first else first) :: parts, '.' ∉ part := by
      intro part member dot
      rcases List.mem_cons.mp member with rfl | later
      · have dot : '.' ∈ first := by
          cases marked with
          | true => exact (List.mem_cons.mp dot).resolve_left (by decide)
          | false => exact dot
        exact absurd (digits first (.head _) _ dot) (by decide)
      · exact absurd (digits part (.tail _ later) _ dot) (by decide)
    have numbers : ∀ part ∈ first :: parts, stoul part = some (Nat.ofDigitChars 10 part 0) :=
      fun part member => stoul_digits (proper part member) (digits part member) (fits part member)
    rw [semverParse, tagged, semverTokens_intercalate (by simpa using several) plain]
    simp only [stripV_digits (digits first (.head _)), mapM_stoul numbers]
    rfl

theorem Version.offered (client available : Version) (clientMarked availableMarked : Bool) :
    upgradeOffered (client.tag clientMarked) (available.tag availableMarked) =
      some (newerVersionAvailable client.components available.components) := by
  have dot : '.' ∈ client.text := by
    by_contra none
    have split := semverTokens_intercalate client.several fun part member dot =>
      absurd (client.digits part member _ dot) (by decide)
    rw [semverTokens, if_neg (show '.' ∉ ['.'].intercalate client.parts from none)] at split
    exact absurd client.several (by rw [← split]; decide)
  have semantic : isSemanticVersion (client.tag clientMarked) = true := by
    rw [isSemanticVersion, Bool.or_eq_true]
    right
    rw [decide_eq_true_eq, Version.tag]
    split
    · exact .tail _ dot
    · exact dot
  rw [upgradeOffered, if_pos semantic, client.semverParse_tag, available.semverParse_tag]
  rfl

/-- No number of the available version is the larger, where each is at most the client's. -/
theorem not_newer_iff {client available : List Nat} (same : client.length = available.length) :
    ¬ newerVersionAvailable client available ↔ List.Forall₂ (· ≤ ·) available client := by
  have each : ∀ {c a : List Nat}, c.length = a.length →
      ((¬ (c.zip a).any fun parts => parts.2 > parts.1) ↔ List.Forall₂ (· ≤ ·) a c) := by
    intro c
    induction c with
    | nil =>
      intro a same
      obtain rfl := List.length_eq_zero_iff.mp same.symm
      simp
    | cons x c ih =>
      intro a same
      obtain ⟨y, a, rfl⟩ := List.exists_cons_of_length_eq_add_one same.symm
      have later := ih (Nat.succ.inj same)
      rw [List.zip_cons_cons, List.any_cons, Bool.or_eq_true, not_or, List.forall₂_cons, later]
      simp
  rw [newerVersionAvailable, beq_iff_eq.mpr same, Bool.true_and]
  exact each same

private theorem not_newer_self (version : List Nat) : ¬ newerVersionAvailable version version :=
  (not_newer_iff rfl).mpr (List.forall₂_same.mpr fun _ _ => Nat.le_refl _)

private theorem not_lt_of_forall₂ {client available : List Nat} (below : List.Forall₂ (· ≤ ·) available client) :
    ¬ client < available := by
  induction below with
  | nil => exact List.not_lt_nil _
  | cons first _ ih =>
    rw [List.cons_lt_cons_iff]
    rintro (less | ⟨-, later⟩)
    · exact absurd less (Nat.not_lt.mpr first)
    · exact ih later

private theorem lt_of_forall₂ {client available : List Nat} (above : List.Forall₂ (· ≤ ·) client available) :
    client < available ∨ client = available := by
  induction above with
  | nil => exact .inr rfl
  | cons first _ ih =>
    rw [List.cons_lt_cons_iff]
    rcases Nat.lt_or_eq_of_le first with less | rfl
    · exact .inl (.inl less)
    · rcases ih with later | rfl
      · exact .inl (.inr ⟨rfl, later⟩)
      · exact .inr rfl

/-- The client sees the order of two versions exactly where they are in step, if it is not
also to see the other order. -/
theorem inStep_iff (client available : List Nat) : InStep client available ↔
    (newerVersionAvailable client available ↔ client < available) ∧
      (newerVersionAvailable client available → ¬ newerVersionAvailable available client) := by
  rw [InStep]
  split
  next same =>
    constructor
    · rintro (above | below)
      · have not_older := (not_newer_iff same.symm).mpr above
        refine ⟨⟨fun newer => ?_, fun less => ?_⟩, fun _ => not_older⟩
        · exact (lt_of_forall₂ above).resolve_right fun equal => not_newer_self _ (equal ▸ newer)
        · by_contra not_newer
          exact not_lt_of_forall₂ ((not_newer_iff same).mp not_newer) less
      · have not_newer := (not_newer_iff same).mpr below
        exact ⟨iff_of_false not_newer (not_lt_of_forall₂ below), fun newer => absurd newer not_newer⟩
    · rintro ⟨-, asymmetric⟩
      by_cases newer : newerVersionAvailable client available
      · exact .inl ((not_newer_iff same.symm).mp (asymmetric newer))
      · exact .inr ((not_newer_iff same).mp newer)
  next other =>
    have none : ¬ newerVersionAvailable client available := by
      rw [newerVersionAvailable, beq_false_of_ne other, Bool.false_and]
      exact Bool.false_ne_true
    exact ⟨fun not_less => ⟨iff_of_false none not_less, fun newer => absurd newer none⟩,
      fun decided less => none (decided.1.mpr less)⟩

inductive Numbered : List Bytes → Bytes → Prop
  | ended : Numbered [] []
  | part {part rest text : Bytes} {parts : List Bytes} (front : trim text = part ++ rest) (proper : part ≠ [])
      (digits : ∀ c ∈ part, isDigit c) (stops : ¬ begins isAlnum rest) (more : Numbered parts rest) :
      Numbered (part :: parts) text

theorem begins_append {accepts : UInt8 → Bool} {part : Bytes} (rest : Bytes) (proper : part ≠ [])
    (all : ∀ c ∈ part, accepts c) : begins accepts (part ++ rest) := by
  obtain ⟨c, part, rfl⟩ := List.exists_cons_of_ne_nil proper
  exact all c (.head _)

private theorem span_digits {part rest : Bytes} (digits : ∀ c ∈ part, isDigit c) (stops : ¬ begins isAlnum rest) :
    (part ++ rest).takeWhile isDigit = part ∧ (part ++ rest).dropWhile isDigit = rest := by
  rw [List.takeWhile_append_of_pos digits, List.dropWhile_append_of_pos digits]
  cases rest with
  | nil => exact ⟨List.append_nil _, rfl⟩
  | cons c rest =>
    have other : ¬ isDigit c := fun digit => stops (digit_alnum (show begins isDigit (c :: rest) from digit))
    rw [List.takeWhile_cons_of_neg other, List.dropWhile_cons_of_neg other]
    exact ⟨List.append_nil _, rfl⟩

/-- Texts of numbers are read well, and ordered as the lists of the numbers are. -/
theorem Numbered.ordered {first second : List Bytes} {x y : Bytes} (left : Numbered first x) (right : Numbered second y) :
    WellRead x y ∧ rpmvercmp x y = List.compareLex Ord.compare (first.map value) (second.map value) := by
  induction left generalizing second y with
  | ended =>
    cases right with
    | ended => exact ⟨.ended, rpmvercmp_self []⟩
    | @part part rest y parts front proper digits stops more =>
      have numeric : begins isDigit (trim y) := front ▸ begins_append rest proper digits
      refine ⟨.leftEnded (digit_alnum numeric), ?_⟩
      exact rpmvercmp_of_front (by rw [next_of_number numeric]; rfl) Ordering.noConfusion
  | @part part rest x parts front proper digits stops more ih =>
    have numeric : begins isDigit (trim x) := front ▸ begins_append rest proper digits
    have spans := span_digits digits stops
    cases right with
    | ended =>
      refine ⟨.rightEnded (digit_alnum numeric), ?_⟩
      exact rpmvercmp_of_front (by rw [next_of_number numeric]; rfl) Ordering.noConfusion
    | @part other left y others front' proper' digits' stops' more' =>
      have numeric' : begins isDigit (trim y) := front' ▸ begins_append left proper' digits'
      have spans' := span_digits digits' stops'
      have after : afterNumber x = rest := by rw [afterNumber, front, spans.2]
      have after' : afterNumber y = left := by rw [afterNumber, front', spans'.2]
      obtain ⟨read, order⟩ := ih more'
      have alone : ¬ begins isAlpha (afterNumber x) := after ▸ fun letter => stops (letter_alnum letter)
      refine ⟨.numbers numeric numeric' (.inl alone) fun _ => after ▸ after' ▸ read, ?_⟩
      calc rpmvercmp x y
          = (compareNumbers part other).then (rpmvercmp rest left) := by
            rw [rpmvercmp_step, next_of_number numeric, next_of_number numeric', after, after', front, front', spans.1, spans'.1]
            rfl
        _ = (Ord.compare (value part) (value other)).then (List.compareLex Ord.compare (parts.map value) (others.map value)) := by
            rw [compareNumbers_value digits digits', order]
        _ = List.compareLex Ord.compare ((part :: parts).map value) ((other :: others).map value) := by
            rw [List.map_cons, List.map_cons, List.compareLex_cons_cons]

def digitBytes (part : List Char) : Bytes := part.map fun c => c.toNat.toUInt8

private theorem toUInt8_digit {c : Char} (digit : c.isDigit = true) : c.toNat.toUInt8.toNat = c.toNat ∧ isDigit c.toNat.toUInt8 := by
  simp only [Char.isDigit, Bool.and_eq_true, decide_eq_true_eq, ge_iff_le, UInt32.le_iff_toNat_le] at digit
  have range : 48 ≤ c.toNat ∧ c.toNat ≤ 57 := digit
  have same : c.toNat.toUInt8.toNat = c.toNat := by
    rw [Nat.toUInt8, UInt8.toNat_ofNat']
    omega
  refine ⟨same, ?_⟩
  rw [isDigit, Bool.and_eq_true, decide_eq_true_eq, decide_eq_true_eq, UInt8.le_iff_toNat_le, UInt8.le_iff_toNat_le, same]
  exact range

private theorem digitBytes_digits {part : List Char} (digits : ∀ c ∈ part, c.isDigit = true) : ∀ c ∈ digitBytes part, isDigit c := by
  intro byte member
  obtain ⟨c, inside, rfl⟩ := List.mem_map.mp member
  exact (toUInt8_digit (digits c inside)).2

private theorem value_digitBytes {part : List Char} (digits : ∀ c ∈ part, c.isDigit = true) :
    value (digitBytes part) = Nat.ofDigitChars 10 part 0 := by
  induction part with
  | nil => rfl
  | cons c part ih =>
    obtain ⟨first, others⟩ := List.forall_mem_cons.mp digits
    have length : (digitBytes part).length = part.length := List.length_map _
    have zero : '0'.toNat = 48 := rfl
    rw [Nat.ofDigitChars_cons, Nat.ofDigitChars_eq_ofDigitChars_zero, ← ih others, digitBytes, List.map_cons, value,
      (toUInt8_digit first).1, zero, Nat.mul_zero, Nat.zero_add, Nat.mul_comm]
    exact congrArg (10 ^ · * (c.toNat - 48) + _) length

/-- What is left of a version before one of its parts, with or without the dot in front. -/
theorem Numbered.of_parts {parts : List (List Char)} (proper : ∀ part ∈ parts, part ≠ [])
    (digits : ∀ part ∈ parts, ∀ c ∈ part, c.isDigit = true) :
    Numbered (parts.map digitBytes) (digitBytes (['.'].intercalate parts)) ∧
      (parts ≠ [] → Numbered (parts.map digitBytes) (digitBytes ('.' :: ['.'].intercalate parts))) := by
  induction parts with
  | nil => exact ⟨.ended, fun more => absurd rfl more⟩
  | cons part parts ih =>
    obtain ⟨proper, properLater⟩ := List.forall_mem_cons.mp proper
    obtain ⟨digits, digitsLater⟩ := List.forall_mem_cons.mp digits
    have later := ih properLater digitsLater
    have bytes := digitBytes_digits digits
    have some_ : digitBytes part ≠ [] := fun none => proper (List.map_eq_nil_iff.mp none)
    obtain ⟨rest, text, stops, more⟩ : ∃ rest, digitBytes (['.'].intercalate (part :: parts)) = digitBytes part ++ rest ∧
        ¬ begins isAlnum rest ∧ Numbered (parts.map digitBytes) rest := by
      cases parts with
      | nil => exact ⟨[], by rw [List.intercalate_singleton, List.append_nil], Bool.false_ne_true, .ended⟩
      | cons second parts =>
        refine ⟨digitBytes ('.' :: ['.'].intercalate (second :: parts)), ?_, ?_, later.2 (List.cons_ne_nil _ _)⟩
        · rw [List.intercalate_cons_cons, List.append_assoc]
          exact List.map_append
        · exact Bool.false_ne_true
    have trimmed : trim (digitBytes part ++ rest) = digitBytes part ++ rest :=
      trim_of_begins (begins_append rest some_ bytes) fun c digit => alnum_proper (by rw [isAlnum, digit, Bool.true_or])
    have dotted : trim (digitBytes ('.' :: ['.'].intercalate (part :: parts))) = digitBytes part ++ rest := by
      rw [← trimmed, ← text]
      rfl
    rw [List.map_cons]
    exact ⟨.part (text ▸ trimmed) some_ bytes stops more, fun _ => .part dotted some_ bytes stops more⟩

theorem Version.numbered (version : Version) : Numbered (version.parts.map digitBytes) version.bytes :=
  (Numbered.of_parts version.proper version.digits).1

theorem Version.values (version : Version) : (version.parts.map digitBytes).map value = version.components := by
  rw [List.map_map, Version.components]
  exact List.map_congr_left fun part member => value_digitBytes (version.digits part member)

private theorem compareLex_lt (client available : List Nat) :
    List.compareLex Ord.compare client available = .lt ↔ client < available := by
  induction client generalizing available with
  | nil =>
    cases available with
    | nil => exact iff_of_false Ordering.noConfusion (List.not_lt_nil _)
    | cons y available => exact iff_of_true rfl (List.nil_lt_cons _ _)
  | cons x client ih =>
    cases available with
    | nil => exact iff_of_false Ordering.noConfusion (List.not_lt_nil _)
    | cons y available =>
      rw [List.compareLex_cons_cons, List.cons_lt_cons_iff, ← ih]
      rcases Nat.lt_trichotomy x y with less | rfl | more
      · rw [Nat.compare_eq_lt.mpr less]
        exact iff_of_true rfl (.inl less)
      · rw [Std.compare_self]
        simp
      · rw [Nat.compare_eq_gt.mpr more]
        refine iff_of_false Ordering.noConfusion ?_
        rintro (less | ⟨same, -⟩)
        · exact Nat.lt_asymm less more
        · exact Nat.ne_of_gt more same

/-- The comparison of the texts is the lexicographic order of the numbers. -/
theorem Version.compareVersions_lt (client available : Version) :
    (∃ result < 0, compareVersions client.bytes available.bytes = some result) ↔ client.components < available.components := by
  obtain ⟨read, order⟩ := client.numbered.ordered available.numbered
  rw [client.values, available.values] at order
  have answer : compareVersions client.bytes available.bytes =
      some (answerOf (List.compareLex Ord.compare client.components available.components)) := by
    rw [compareVersions]
    split
    next same =>
      rw [← order, same, rpmvercmp_self]
      rfl
    next =>
      rw [← order]
      exact compareLoop_answers read (.start _) (.start _) rfl rfl
  rw [answer, ← compareLex_lt]
  constructor
  · rintro ⟨result, negative, same⟩
    obtain rfl := Option.some.inj same
    revert negative
    cases List.compareLex Ord.compare client.components available.components <;> decide
  · intro less
    exact ⟨-1, by decide, by rw [less]; rfl⟩

/-- The client decides rightly about two versions exactly if no two of their numbers are
ordered against two others, and a version with more or fewer numbers is not the newer. -/
theorem upgradeDecided_iff (client available : Version) (clientMarked availableMarked : Bool) :
    UpgradeDecided client available clientMarked availableMarked ↔ InStep client.components available.components := by
  rw [inStep_iff]
  constructor
  · intro decided
    exact ⟨decided.exactly, decided.asymmetric⟩
  · rintro ⟨exactly, asymmetric⟩
    exact {
      clientParsed := client.semverParse_tag clientMarked
      availableParsed := available.semverParse_tag availableMarked
      offered := client.offered available clientMarked availableMarked
      exactly := exactly
      irreflexive := not_newer_self _
      asymmetric := asymmetric
      agrees := exactly.trans (client.compareVersions_lt available).symm }

def versionOneFive : Version := ⟨[['1'], ['5']], by decide, by decide, by simp, by simp [Nat.ofDigitChars_cons]⟩

def versionTwoZero : Version := ⟨[['2'], ['0']], by decide, by decide, by simp, by simp [Nat.ofDigitChars_cons]⟩

/-- A client of version 2.0 is offered the older version 1.5. -/
theorem upgradeDecided_older : ¬ ∀ (client available : Version) (clientMarked availableMarked : Bool),
    UpgradeDecided client available clientMarked availableMarked := by
  intro decided
  have newer := (decided versionTwoZero versionOneFive true true).exactly.mp (by decide)
  exact absurd newer (by decide)

end Slate
