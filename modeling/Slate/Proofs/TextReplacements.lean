import Slate.Texts

/-! When the replacement of the occurrences of a text is what it is to be. Every search starts at
the front again, so the text that has been rewritten must not hold the target once more. -/

namespace Slate

variable {target replacement src : List Char}

theorem position_bound {pos : Nat} (found : position target src = some pos) : pos + target.length ≤ src.length := by
  obtain ⟨inside, here, -⟩ := List.findIdx?_eq_some_iff_getElem.mp found
  rw [List.getElem_tails, List.isPrefixOf_iff_prefix] at here
  have := here.length_le
  rw [List.length_tails] at inside
  rw [List.length_drop] at this
  omega

private theorem position_eq_none (short : src.length < target.length) : position target src = none := by
  cases found : position target src with
  | none => rfl
  | some pos =>
    have := position_bound found
    omega

/-- The text with its first occurrences replaced, which are found in what is behind the ones
before. -/
def replaceFirst (target replacement : List Char) : Nat → List Char → Replaced
  | 0, src => .unchanged src
  | count + 1, src =>
    match position target src with
    | none => .unchanged src
    | some pos =>
      let behind := src.drop (pos + target.length)
      let others := replaceFirst target replacement count behind
      .after behind { others with text := src.take pos ++ replacement ++ others.text }

/-- An empty text has no occurrences. No text has more occurrences than characters. -/
def simultaneous (src target replacement : List Char) (subs : Nat) : Replaced :=
  if target = [] then .unchanged src
  else replaceFirst target replacement (if subs = 0 then src.length else subs) src

/-- The first occurrences with what is before them, rewritten, and the text behind them. -/
def rewritten (target replacement : List Char) : Nat → List Char → List Char × List Char
  | 0, src => ([], src)
  | count + 1, src =>
    match position target src with
    | none => ([], src)
    | some pos =>
      let others := rewritten target replacement count (src.drop (pos + target.length))
      (src.take pos ++ replacement ++ others.1, others.2)

/-- What a search finds behind the given text and some rewritten occurrences is the next occurrence. -/
def FindsNext (target replacement before src : List Char) (count : Nat) : Prop :=
  let (front, rest) := rewritten target replacement count src
  position target (before ++ front ++ rest) = (position target rest).map ((before ++ front).length + ·)

/-- Wherever the function searches again, the occurrence it finds is the next one of the original. -/
def SearchesOriginal (src target replacement : List Char) (subs : Nat) : Prop :=
  target = [] ∨ ∀ count, (subs = 0 ∨ count < subs) → FindsNext target replacement [] src count

/-- The replacement ends, and it has replaced just the original's occurrences, each where it was. -/
def ReplacesSimultaneously (src target replacement : List Char) (subs : Nat) : Prop :=
  ∃ fuel, replaceString fuel src target replacement subs = some (simultaneous src target replacement subs)

namespace Replaced

def behindOf (front : List Char) (replaced : Replaced) : Replaced := { replaced with text := front ++ replaced.text }

@[simp] theorem behindOf_nil (replaced : Replaced) : replaced.behindOf [] = replaced := rfl

private theorem behindOf_after (front behind : List Char) (replaced : Replaced) :
    (replaced.after behind).behindOf front = (replaced.behindOf front).after behind := rfl

private theorem behindOf_behindOf (first second : List Char) (replaced : Replaced) :
    (replaced.behindOf second).behindOf first = replaced.behindOf (first ++ second) := by
  simp only [behindOf, List.append_assoc]

private theorem after_inj {behind behind' : List Char} {replaced replaced' : Replaced}
    (same : replaced.after behind = replaced'.after behind') : behind.length = behind'.length ∧ replaced = replaced' := by
  cases replaced
  cases replaced'
  simp only [after, mk.injEq, List.cons.injEq] at same
  exact ⟨same.2.1, by rw [same.1, same.2.2]⟩

end Replaced

private theorem rewritten_of_none (none : position target src = none) (count : Nat) :
    rewritten target replacement count src = ([], src) := by
  cases count with
  | zero => rfl
  | succ count => rw [rewritten, none]

private theorem replaceFirst_of_none (none : position target src = none) (count : Nat) :
    replaceFirst target replacement count src = .unchanged src := by
  cases count with
  | zero => rfl
  | succ count => rw [replaceFirst, none]

private theorem replaceFirst_of_some {pos : Nat} (found : position target src = some pos) (count : Nat) :
    replaceFirst target replacement (count + 1) src =
      ((replaceFirst target replacement count (src.drop (pos + target.length))).behindOf
        (src.take pos ++ replacement)).after (src.drop (pos + target.length)) := by
  rw [replaceFirst, found]
  rfl

variable {before : List Char}

private theorem findsNext_of_none (none : position target src = none) (count : Nat) :
    FindsNext target replacement before src count ↔ position target (before ++ src) = .none := by
  rw [FindsNext, rewritten_of_none none]
  simp [none]

private theorem findsNext_zero : FindsNext target replacement before src 0 ↔
    position target (before ++ src) = (position target src).map (before.length + ·) := by
  simp [FindsNext, rewritten]

private theorem findsNext_succ {pos : Nat} (found : position target src = some pos) (count : Nat) :
    FindsNext target replacement before src (count + 1) ↔
      FindsNext target replacement (before ++ (src.take pos ++ replacement)) (src.drop (pos + target.length)) count := by
  rw [FindsNext, rewritten, found]
  simp only [FindsNext, List.append_assoc]

/-- How many replacements are left to the loop: any number, or those up to the bound. -/
def Left (subs replacements : Nat) (rest : List Char) (count : Nat) : Prop :=
  if subs = 0 then rest.length ≤ count else 0 < count ∧ replacements + count = subs

/-- One round of the loop that replaces the next occurrence of the original. -/
theorem replaceLoop_next {subs fuel replacements pos : Nat}
    (found : position target (before ++ src) = some (before.length + pos)) :
    replaceLoop target replacement subs (fuel + 1) replacements (before ++ src) =
      (if subs ≠ 0 ∧ subs ≤ replacements + 1 then
          some (.unchanged (before ++ (src.take pos ++ replacement) ++ src.drop (pos + target.length)))
        else replaceLoop target replacement subs fuel (replacements + 1)
          (before ++ (src.take pos ++ replacement) ++ src.drop (pos + target.length))).map
        (.after (src.drop (pos + target.length))) := by
  have front : (before ++ src).take (before.length + pos) = before ++ src.take pos := List.take_length_add_append pos
  have behind : (before ++ src).drop (before.length + pos + target.length) = src.drop (pos + target.length) := by
    rw [Nat.add_assoc, List.drop_length_add_append]
  rw [replaceLoop, found]
  simp only [front, behind, List.append_assoc]

/-- The loop leaves a text as it is if and only if it finds nothing in it. -/
theorem replaceLoop_unchanged_iff {subs replacements : Nat} :
    (∃ fuel, replaceLoop target replacement subs fuel replacements src = some (.unchanged src)) ↔
      position target src = none := by
  constructor
  · rintro ⟨fuel, returned⟩
    cases fuel with
    | zero => cases returned
    | succ fuel =>
      rw [replaceLoop] at returned
      cases found : position target src with
      | none => rfl
      | some pos =>
        rw [found] at returned
        obtain ⟨others, -, same⟩ := Option.map_eq_some_iff.mp returned
        have none := congrArg Replaced.behind same
        cases none
  · intro none
    exact ⟨1, by rw [replaceLoop, none]⟩

/-- The first replacement is made where as much is behind it as there is behind the occurrence. -/
theorem found_of_after {subs fuel replacements pos : Nat} {others : Replaced}
    (found : position target src = some pos)
    (returned : replaceLoop target replacement subs fuel replacements (before ++ src) =
      some (others.after (src.drop (pos + target.length)))) :
    position target (before ++ src) = some (before.length + pos) := by
  cases fuel with
  | zero => cases returned
  | succ fuel =>
    rw [replaceLoop] at returned
    cases here : position target (before ++ src) with
    | none =>
      rw [here] at returned
      have none := congrArg Replaced.behind (Option.some.inj returned)
      cases none
    | some place =>
      rw [here] at returned
      obtain ⟨others', -, same⟩ := Option.map_eq_some_iff.mp returned
      have behind := (Replaced.after_inj same).1
      have bound := position_bound found
      have bound' := position_bound here
      rw [List.length_drop, List.length_drop, List.length_append] at behind
      rw [List.length_append] at bound'
      exact congrArg some (by omega)

/-- With nothing left to find, the loop is to find nothing. -/
theorem replaceLoop_iff_of_none {subs replacements count : Nat} (first : subs = 0 ∨ 0 < count)
    (none : position target src = none) :
    (∃ fuel, replaceLoop target replacement subs fuel replacements (before ++ src) =
        some ((replaceFirst target replacement count src).behindOf before)) ↔
      ∀ i, (subs = 0 ∨ i < count) → FindsNext target replacement before src i := by
  simp only [findsNext_of_none none, replaceFirst_of_none none]
  exact replaceLoop_unchanged_iff.trans ⟨fun nothing _ _ => nothing, fun nothing => nothing 0 first⟩

/-- The loop replaces the next occurrences of the original if and only if its searches find them. -/
theorem replaceLoop_iff (proper : target ≠ []) {subs replacements count : Nat}
    (left : Left subs replacements src count) :
    (∃ fuel, replaceLoop target replacement subs fuel replacements (before ++ src) =
        some ((replaceFirst target replacement count src).behindOf before)) ↔
      ∀ i, (subs = 0 ∨ i < count) → FindsNext target replacement before src i := by
  have positive : 0 < target.length := List.length_pos_iff.mpr proper
  induction count generalizing before src replacements with
  | zero =>
    unfold Left at left
    split at left
    case isFalse => exact absurd left.1 (Nat.lt_irrefl 0)
    case isTrue unbounded => exact replaceLoop_iff_of_none (.inl unbounded) (position_eq_none (by omega))
  | succ count ih =>
    cases found : position target src with
    | none => exact replaceLoop_iff_of_none (.inr (Nat.succ_pos count)) found
    | some pos =>
      have bound := position_bound found
      have finished (last : subs ≠ 0 ∧ subs ≤ replacements + 1) : count = 0 := by
        rw [Left, if_neg last.1] at left
        omega
      have continues (further : ¬(subs ≠ 0 ∧ subs ≤ replacements + 1)) :
          Left subs (replacements + 1) (src.drop (pos + target.length)) count := by
        unfold Left at left ⊢
        rw [List.length_drop]
        split at left <;> split <;> omega
      rw [replaceFirst_of_some found, Replaced.behindOf_after, Replaced.behindOf_behindOf]
      constructor
      · rintro ⟨fuel, returned⟩ i allowed
        have here := found_of_after found returned
        cases i with
        | zero => rw [findsNext_zero, here, found, Option.map_some]
        | succ i =>
          cases fuel with
          | zero => cases returned
          | succ fuel =>
            rw [replaceLoop_next here] at returned
            obtain ⟨others, later, same⟩ := Option.map_eq_some_iff.mp returned
            obtain rfl := (Replaced.after_inj same).2
            rw [findsNext_succ found]
            split at later
            case isTrue last =>
              have none := finished last
              omega
            case isFalse further =>
              exact (ih (continues further)).mp ⟨fuel, later⟩ i (allowed.imp_right Nat.lt_of_succ_lt_succ)
      · intro each
        have here : position target (before ++ src) = some (before.length + pos) := by
          rw [findsNext_zero.mp (each 0 (.inr (Nat.succ_pos count))), found, Option.map_some]
        by_cases last : subs ≠ 0 ∧ subs ≤ replacements + 1
        · refine ⟨1, ?_⟩
          rw [replaceLoop_next here, if_pos last, finished last]
          rfl
        · obtain ⟨fuel, later⟩ := (ih (continues last)).mpr fun i allowed =>
            (findsNext_succ found i).mp (each (i + 1) (allowed.imp_right Nat.succ_lt_succ))
          refine ⟨fuel + 1, ?_⟩
          rw [replaceLoop_next here, if_neg last, later]
          rfl

/-- The replacement is the simultaneous one if and only if no search finds the target in what
has been rewritten. -/
theorem replaceString_iff (src target replacement : List Char) (subs : Nat) :
    ReplacesSimultaneously src target replacement subs ↔ SearchesOriginal src target replacement subs := by
  unfold ReplacesSimultaneously SearchesOriginal simultaneous replaceString
  by_cases proper : target = []
  · simp [proper]
  · have left : Left subs 0 src (if subs = 0 then src.length else subs) := by
      unfold Left
      split <;> omega
    have loop := @replaceLoop_iff _ replacement _ [] proper _ _ _ left
    have count : (∀ i, (subs = 0 ∨ i < if subs = 0 then src.length else subs) →
        FindsNext target replacement [] src i) ↔
        ∀ i, (subs = 0 ∨ i < subs) → FindsNext target replacement [] src i := by
      split <;> simp_all
    rw [count] at loop
    simp only [proper, if_false, false_or]
    by_cases empty : src = []
    · have none : position target src = none := position_eq_none (by simp [empty, List.length_pos_iff, proper])
      simp only [empty, if_true, findsNext_of_none (empty ▸ none), replaceFirst_of_none (empty ▸ none)]
      simp [empty ▸ none]
    · simp only [if_neg empty]
      exact loop

private theorem replaceLoop_endless (fuel replacements : Nat) : replaceLoop ['a'] ['a'] 0 fuel replacements ['a'] = none := by
  induction fuel generalizing replacements with
  | zero => rfl
  | succ fuel ih =>
    change (replaceLoop ['a'] ['a'] 0 fuel (replacements + 1) ['a']).map _ = none
    rw [ih, Option.map_none]

/-- A replacement that holds the target is replaced again, and without a bound forever. -/
theorem replaceString_repeats :
    simultaneous ['a'] ['a'] ['a', 'a'] 2 = ⟨['a', 'a'], [0]⟩ ∧
      replaceString 2 ['a'] ['a'] ['a', 'a'] 2 = some ⟨['a', 'a', 'a'], [0, 1]⟩ ∧
      ¬ ReplacesSimultaneously ['a'] ['a'] ['a', 'a'] 2 ∧
      ∀ fuel, replaceString fuel ['a'] ['a'] ['a'] 0 = none := by
  refine ⟨by decide, by decide, ?_, fun fuel => replaceLoop_endless fuel 0⟩
  rintro ⟨fuel, returned⟩
  rcases fuel with _ | _ | fuel
  · cases returned
  · cases returned
  · have twice : replaceString (fuel + 2) ['a'] ['a'] ['a', 'a'] 2 = some ⟨['a', 'a', 'a'], [0, 1]⟩ := rfl
    rw [twice] at returned
    exact absurd returned (by decide)

end Slate
