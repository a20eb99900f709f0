import Slate.Library.Versions

/-! The comparison of version texts that the client makes for the components installed on
a cluster. Its two cursors are kept as what is left of each text, with the segment that
was marked last. -/

namespace Slate
open Library Versions

/-- A position in a text with the start of a segment before it. The characters from the
start to the position are kept, once the start is set, and those from the position on. -/
structure Cursor where
  segment : Option Bytes
  rest : Bytes
deriving DecidableEq

namespace Cursor

/-- A position at the start of a text. No segment is marked yet. -/
def start (text : Bytes) : Cursor := ⟨none, text⟩

/-- The character at the position, which is a NUL at the end of the text. -/
def front (cursor : Cursor) : UInt8 := cursor.rest.headD 0

def atEnd (cursor : Cursor) : Bool := cursor.rest.isEmpty

/-- Moves over characters while they are accepted. -/
def advance (cursor : Cursor) (accepts : UInt8 → Bool) : Cursor where
  segment := cursor.segment.map (· ++ cursor.rest.takeWhile accepts)
  rest := cursor.rest.dropWhile accepts

def increment (cursor : Cursor) : Cursor where
  segment := cursor.segment.map (· ++ cursor.rest.take 1)
  rest := cursor.rest.drop 1

/-- Marks the start of a segment, and moves over the characters that belong to it. -/
def pop (cursor : Cursor) (accepts : UInt8 → Bool) : Cursor :=
  ({ cursor with segment := some [] } : Cursor).advance accepts

end Cursor

/-- What is left of the texts decides when the loop has ended: the longest wins. -/
def compareLeft (a b : Cursor) : Int :=
  if a.rest.length > b.rest.length then 1
  else if a.rest.length < b.rest.length then -1
  else 0

/-- The comparison of two segments, as `strcmp` would make it for signed characters. -/
def compareSegments : Bytes → Bytes → Int
  | [], [] => 0
  | [], _ :: _ => -1
  | _ :: _, [] => 1
  | c :: x, d :: y =>
    if c.toInt8 < d.toInt8 then -1
    else if c.toInt8 > d.toInt8 then 1
    else compareSegments x y

inductive Pass
  | returns (result : Int)
  /-- The start of a segment is read that has never been set. -/
  | unset
  | breaks (a b : Cursor)
  | continues (a b : Cursor)

/-- Pops a leading segment from both texts, if the first one begins with it. -/
def popBoth (accepts : UInt8 → Bool) (a b : Cursor) : Cursor × Cursor :=
  if accepts a.front then (a.pop accepts, b.pop accepts) else (a, b)

/-- Pops the leading number, and then the letters that follow it. -/
def popSegments (a b : Cursor) : Cursor × Cursor :=
  let popped := popBoth isDigit a b
  popBoth isAlpha popped.1 popped.2

def comparePopped (a b : Cursor) : Pass :=
  match a.segment, b.segment with
  | some left, some right =>
    let first := (left ++ a.rest).headD 0
    if right.isEmpty && isDigit first then
      .returns 1
    else if right.isEmpty && isAlpha first then
      .returns (-1)
    else
      let numeric := isDigit first
      let left := if numeric then withoutZeros left else left
      let right := if numeric then withoutZeros right else right
      if numeric && left.length > right.length then
        .returns 1
      else if numeric && right.length > left.length then
        .returns (-1)
      else
        let compared := compareSegments left right
        if compared ≠ 0 then
          .returns compared
        else
          .continues ⟨some [], a.rest⟩ ⟨some [], b.rest⟩
  | _, _ => .unset

def compareNext (a b : Cursor) : Pass :=
  let popped := popSegments a b
  comparePopped popped.1 popped.2

def comparePass (a b : Cursor) : Pass :=
  let a := a.advance isSeparator
  let b := b.advance isSeparator
  if a.front == tilde && b.front == tilde then
    let a := a.increment
    let b := b.increment
    if a.atEnd || b.atEnd then
      .breaks a b
    else
      compareNext a b
  else if a.front == tilde then
    .returns (-1)
  else if b.front == tilde then
    .returns 1
  else
    compareNext a b

namespace Cursor

@[simp] theorem advance_rest (cursor : Cursor) (accepts : UInt8 → Bool) :
    (cursor.advance accepts).rest = cursor.rest.dropWhile accepts := rfl

@[simp] theorem pop_rest (cursor : Cursor) (accepts : UInt8 → Bool) :
    (cursor.pop accepts).rest = cursor.rest.dropWhile accepts := rfl

@[simp] theorem pop_segment (cursor : Cursor) (accepts : UInt8 → Bool) :
    (cursor.pop accepts).segment = some (cursor.rest.takeWhile accepts) := rfl

@[simp] theorem increment_rest (cursor : Cursor) : cursor.increment.rest = cursor.rest.drop 1 := rfl

private theorem pop_le (cursor : Cursor) (accepts : UInt8 → Bool) : (cursor.pop accepts).rest.length ≤ cursor.rest.length :=
  (List.dropWhile_suffix accepts).length_le

private theorem pop_lt {cursor : Cursor} {accepts : UInt8 → Bool} (first : accepts cursor.front) (proper : accepts 0 = false) :
    (cursor.pop accepts).rest.length < cursor.rest.length := by
  rcases cursor with ⟨segment, rest⟩
  cases rest with
  | nil => simp_all [front]
  | cons c rest =>
    have left := (List.dropWhile_suffix accepts (l := rest)).length_le
    have accepted : accepts c := first
    simp only [pop_rest, List.dropWhile_cons, accepted, if_true, List.length_cons]
    omega

end Cursor

theorem popBoth_le (accepts : UInt8 → Bool) (a b : Cursor) : (popBoth accepts a b).1.rest.length ≤ a.rest.length := by
  unfold popBoth
  split
  · exact a.pop_le accepts
  · exact Nat.le_refl _

private theorem popSegments_le (a b : Cursor) : (popSegments a b).1.rest.length ≤ a.rest.length :=
  Nat.le_trans (popBoth_le isAlpha _ _) (popBoth_le isDigit a b)

private theorem popSegments_lt {a : Cursor} (b : Cursor) (first : isDigit a.front ∨ isAlpha a.front) :
    (popSegments a b).1.rest.length < a.rest.length := by
  by_cases digit : isDigit a.front
  · have shorter : (popBoth isDigit a b).1.rest.length < a.rest.length := by
      rw [popBoth, if_pos digit]
      exact Cursor.pop_lt digit (by decide)
    exact Nat.lt_of_le_of_lt (popBoth_le isAlpha _ _) shorter
  · have letter := first.resolve_left digit
    have same : popBoth isDigit a b = (a, b) := if_neg digit
    rw [popSegments, same, popBoth, if_pos letter]
    exact Cursor.pop_lt letter (by decide)

private theorem comparePopped_continues {a b a' b' : Cursor} (again : comparePopped a b = .continues a' b') :
    a' = ⟨some [], a.rest⟩ ∧ b' = ⟨some [], b.rest⟩ := by
  unfold comparePopped at again
  grind

/-- A pass that does not end the loop has moved on in the first text. -/
theorem comparePass_shorter {a b a' b' : Cursor} (more : a.rest ≠ [])
    (again : comparePass a b = .continues a' b') : a'.rest.length < a.rest.length := by
  have trimmed : (a.advance isSeparator).rest.length ≤ a.rest.length := (List.dropWhile_suffix isSeparator).length_le
  have popped : ∀ x y : Cursor, compareNext x y = .continues a' b' → a'.rest = (popSegments x y).1.rest := by
    intro x y continued
    rw [(comparePopped_continues (a := (popSegments x y).1) continued).1]
  unfold comparePass at again
  simp only at again
  split at again
  next tildes =>
    split at again
    · cases again
    · have after := popSegments_le (a.advance isSeparator).increment (b.advance isSeparator).increment
      rw [popped _ _ again]
      have proper : (a.advance isSeparator).rest ≠ [] := by
        intro ended
        simp only [Cursor.front, ended, List.headD_nil] at tildes
        exact absurd (Bool.and_eq_true_iff.mp tildes).1 (by decide)
      have positive := List.length_pos_iff.mpr proper
      rw [Cursor.increment_rest, List.length_drop] at after
      omega
  · split at again
    · cases again
    · split at again
      · cases again
      next left _ =>
        rw [popped _ _ again]
        cases shape : (a.advance isSeparator).rest with
        | nil =>
          have after := popSegments_le (a.advance isSeparator) (b.advance isSeparator)
          rw [shape] at after
          exact Nat.lt_of_le_of_lt after (List.length_pos_iff.mpr more)
        | cons c rest =>
          have proper : isSeparator c = false := trim_front shape
          have first : (a.advance isSeparator).front = c := by rw [Cursor.front, shape]; rfl
          refine Nat.lt_of_lt_of_le (popSegments_lt _ ?_) trimmed
          rw [first] at left ⊢
          grind [isSeparator]

/-- The loop over both texts, and what is compared once it has ended. -/
def compareLoop (a b : Cursor) : Option Int :=
  if _more : a.rest = [] ∨ b.rest = [] then
    some (compareLeft a b)
  else
    match _again : comparePass a b with
    | .returns result => some result
    | .unset => none
    | .breaks a b => some (compareLeft a b)
    | .continues a b => compareLoop a b
termination_by a.rest.length
decreasing_by exact comparePass_shorter (fun ended => _more (.inl ended)) _again

/-- Negative where the first version is the older, positive where it is the newer. There is
no answer where the start of a segment is read that has never been set. -/
def compareVersions (a b : Bytes) : Option Int :=
  if a = b then some 0 else compareLoop (.start a) (.start b)

end Slate
