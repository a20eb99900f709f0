import Slate.Texts

/-! When the wrapping of a text ends and keeps to the width: only with room behind the indent. -/

namespace Slate

/-- The text is wrapped into lines that are short enough, and from which it can be put together
again. -/
structure Wrapped (orig indent : List Char) (maxWidth : Nat) (result : List Char) : Prop where
  fits : ∀ text ∈ result.splitOn '\n', text.length ≤ max maxWidth (indent.length + 1)
  keeps : ∃ (first : List Char) (others : List (List Char)),
    result.splitOn '\n' = first :: others.map (indent ++ ·) ∧ first ++ others.flatten = orig

/-- The wrapping ends, with every line within the width and the whole text in the lines. -/
def WrapsAll (orig indent : StdString) (maxWidth : UInt64) : Prop :=
  ∃ fuel result, wrapWithIndent fuel orig indent maxWidth = some result ∧
    Wrapped orig.text indent.text maxWidth.toNat result

/-- One line is enough, or the indent leaves room on the next ones, or it is longer than the
width and there is one character behind the first line. -/
def Wrappable (orig indent : StdString) (maxWidth : UInt64) : Prop :=
  orig.text.length ≤ maxWidth.toNat ∨ indent.text.length < maxWidth.toNat ∨
    (maxWidth.toNat < indent.text.length ∧ orig.text.length = maxWidth.toNat + 1)

variable {indent remaining : List Char} {maxWidth : UInt64}

/-- The characters that the code takes on a line but the first. -/
def furtherRoom (indent : List Char) (maxWidth : UInt64) : Nat := (maxWidth - UInt64.ofNat indent.length).toNat

private theorem furtherRoom_of_le (short : indent.length ≤ maxWidth.toNat) :
    furtherRoom indent maxWidth = maxWidth.toNat - indent.length := by
  have bound := maxWidth.toNat_lt
  have same : (UInt64.ofNat indent.length).toNat = indent.length := UInt64.toNat_ofNat_of_lt' (by rw [UInt64.size]; omega)
  rw [furtherRoom, UInt64.toNat_sub_of_le _ _ (UInt64.le_iff_toNat_le.mpr (by omega)), same]

/-- An indent that is too long makes the difference wrap around. -/
theorem furtherRoom_of_lt (long : maxWidth.toNat < indent.length) (sized : indent.length < 2 ^ 63) :
    2 ^ 63 ≤ furtherRoom indent maxWidth := by
  have same : (UInt64.ofNat indent.length).toNat = indent.length := UInt64.toNat_ofNat_of_lt' (by rw [UInt64.size]; omega)
  rw [furtherRoom, UInt64.toNat_sub, same]
  omega

private theorem wrapLoop_nil (fuel : Nat) (firstLine : Bool) : wrapLoop indent maxWidth (fuel + 1) firstLine [] = some [] := rfl

theorem wrapLoop_first (fuel : Nat) (proper : remaining ≠ []) :
    wrapLoop indent maxWidth (fuel + 1) true remaining =
      (wrapLoop indent maxWidth fuel false (remaining.drop maxWidth.toNat)).map (remaining.take maxWidth.toNat ++ ·) := by
  rw [wrapLoop, if_neg proper]
  simp only [if_true, List.nil_append, ← List.take_eq_take_min, ← List.drop_eq_drop_min]

theorem wrapLoop_further (fuel : Nat) (proper : remaining ≠ []) :
    wrapLoop indent maxWidth (fuel + 1) false remaining =
      (wrapLoop indent maxWidth fuel false (remaining.drop (furtherRoom indent maxWidth))).map
        ('\n' :: (indent ++ remaining.take (furtherRoom indent maxWidth)) ++ ·) := by
  rw [wrapLoop, if_neg proper]
  simp only [Bool.false_eq_true, if_false, ← List.take_eq_take_min, ← List.drop_eq_drop_min, furtherRoom, List.cons_append]

/-- The function returns what the loop does behind the first line. -/
theorem wrapWithIndent_iff {orig indent : StdString} {property : List Char → Prop} :
    (∃ fuel result, wrapWithIndent fuel orig indent maxWidth = some result ∧ property result) ↔
      ∃ fuel result, wrapLoop indent.text maxWidth fuel false (orig.text.drop maxWidth.toNat) = some result ∧
        property (orig.text.take maxWidth.toNat ++ result) := by
  unfold wrapWithIndent
  by_cases proper : orig.text = []
  · rw [proper, List.take_nil, List.drop_nil]
    constructor
    · rintro ⟨fuel, result, returned, holds⟩
      cases fuel with
      | zero => cases returned
      | succ fuel => exact ⟨fuel + 1, result, returned, holds⟩
    · rintro ⟨fuel, result, returned, holds⟩
      cases fuel with
      | zero => cases returned
      | succ fuel => exact ⟨fuel + 1, result, returned, holds⟩
  · constructor
    · rintro ⟨fuel, result, returned, holds⟩
      cases fuel with
      | zero => cases returned
      | succ fuel =>
        rw [wrapLoop_first fuel proper] at returned
        obtain ⟨rest, later, rfl⟩ := Option.map_eq_some_iff.mp returned
        exact ⟨fuel, rest, later, holds⟩
    · rintro ⟨fuel, rest, later, holds⟩
      refine ⟨fuel + 1, _, ?_, holds⟩
      rw [wrapLoop_first fuel proper, later, Option.map_some]

/-- The lines behind the first, each with its line break and the indent. -/
def continued (indent : List Char) (others : List (List Char)) : List Char :=
  others.flatMap fun other => '\n' :: (indent ++ other)

private theorem splitOn_continued {first : List Char} {others : List (List Char)} (unbroken : '\n' ∉ first)
    (indented : '\n' ∉ indent) (each : ∀ other ∈ others, '\n' ∉ other) :
    (first ++ continued indent others).splitOn '\n' = first :: others.map (indent ++ ·) := by
  induction others generalizing first with
  | nil =>
    rw [continued, List.flatMap_nil, List.append_nil]
    exact List.splitOn_eq_singleton unbroken
  | cons other others ih =>
    have here : '\n' ∉ indent ++ other := by
      rw [List.mem_append, not_or]
      exact ⟨indented, each other (.head _)⟩
    rw [continued, List.flatMap_cons, List.cons_append, List.splitOn_append_cons_self_of_not_mem unbroken]
    exact congrArg _ (ih here fun other member => each other (.tail _ member))

/-- With room behind the indent every further line takes some of the text. -/
theorem wrapLoop_continued (sized : indent.length < maxWidth.toNat) {fuel : Nat}
    (enough : remaining.length < fuel) :
    ∃ others, wrapLoop indent maxWidth fuel false remaining = some (continued indent others) ∧
      others.flatten = remaining ∧ ∀ other ∈ others, indent.length + other.length ≤ maxWidth.toNat := by
  have room := furtherRoom_of_le (Nat.le_of_lt sized)
  induction fuel generalizing remaining with
  | zero => omega
  | succ fuel ih =>
    by_cases proper : remaining = []
    · exact ⟨[], by rw [proper]; rfl, proper.symm, by simp⟩
    · have positive := List.length_pos_iff.mpr proper
      have rest : (remaining.drop (furtherRoom indent maxWidth)).length < fuel := by
        rw [List.length_drop]
        omega
      obtain ⟨others, later, same, fits⟩ := ih rest
      refine ⟨remaining.take (furtherRoom indent maxWidth) :: others, ?_, ?_, ?_⟩
      · rw [wrapLoop_further fuel proper, later]
        rfl
      · rw [List.flatten_cons, same, List.take_append_drop]
      · intro other member
        rcases List.mem_cons.mp member with rfl | member
        · rw [List.length_take]
          omega
        · exact fits other member

/-- An indent as long as the width leaves no room, so that nothing is taken any more. -/
theorem wrapLoop_endless (full : indent.length = maxWidth.toNat) (proper : remaining ≠ []) (fuel : Nat) :
    wrapLoop indent maxWidth fuel false remaining = none := by
  have room := furtherRoom_of_le (Nat.le_of_eq full)
  rw [full, Nat.sub_self] at room
  induction fuel with
  | zero => rfl
  | succ fuel ih => rw [wrapLoop_further fuel proper, room, List.drop_zero, ih, Option.map_none]

/-- With a longer indent all of the rest goes on one line. -/
theorem wrapLoop_overhang (long : maxWidth.toNat < indent.length) (sized : indent.length < 2 ^ 63)
    (proper : remaining ≠ []) (small : remaining.length < 2 ^ 63) (fuel : Nat) :
    wrapLoop indent maxWidth (fuel + 2) false remaining = some (continued indent [remaining]) := by
  have room := furtherRoom_of_lt long sized
  rw [wrapLoop_further _ proper, List.take_of_length_le (by omega), List.drop_eq_nil_of_le (by omega), wrapLoop_nil]
  simp [continued]

/-- The lines behind the first one decide whether the text is wrapped as it is to be. -/
theorem wrapped_iff {first : List Char} {others : List (List Char)} (unbroken : '\n' ∉ first ++ others.flatten)
    (indented : '\n' ∉ indent) (short : first.length ≤ maxWidth.toNat) :
    Wrapped (first ++ others.flatten) indent maxWidth.toNat (first ++ continued indent others) ↔
      ∀ other ∈ others, indent.length + other.length ≤ max maxWidth.toNat (indent.length + 1) := by
  rw [List.mem_append, not_or] at unbroken
  have each (other : List Char) (member : other ∈ others) : '\n' ∉ other := fun inside =>
    unbroken.2 (List.mem_flatten.mpr ⟨other, member, inside⟩)
  have lines := splitOn_continued unbroken.1 indented each
  constructor
  · intro wrapped other member
    have fits := wrapped.fits (indent ++ other) (by
      rw [lines]
      exact .tail _ (List.mem_map_of_mem member))
    rwa [List.length_append] at fits
  · intro fits
    constructor
    · intro text member
      rw [lines] at member
      rcases List.mem_cons.mp member with rfl | member
      · omega
      · obtain ⟨other, inside, rfl⟩ := List.mem_map.mp member
        rw [List.length_append]
        exact fits other inside
    · exact ⟨first, others, lines, rfl⟩

/-- The wrapping of a text ends, within the width and with nothing lost, if and only if one line
is enough, or the indent leaves room, or it is longer and there is one character too many. -/
theorem wrapWithIndent_iff_wrappable (orig indent : StdString) (maxWidth : UInt64) (unbroken : '\n' ∉ orig.text)
    (indented : '\n' ∉ indent.text) : WrapsAll orig indent maxWidth ↔ Wrappable orig indent maxWidth := by
  have parts := List.take_append_drop maxWidth.toNat orig.text
  have short : (orig.text.take maxWidth.toNat).length ≤ maxWidth.toNat := by
    rw [List.length_take]
    omega
  have behind : (orig.text.drop maxWidth.toNat).length = orig.text.length - maxWidth.toNat := List.length_drop
  -- What is printed behind the first line, and what is to be shown of it.
  have judged (others : List (List Char)) (same : others.flatten = orig.text.drop maxWidth.toNat) :
      Wrapped orig.text indent.text maxWidth.toNat (orig.text.take maxWidth.toNat ++ continued indent.text others) ↔
        ∀ other ∈ others, indent.text.length + other.length ≤ max maxWidth.toNat (indent.text.length + 1) := by
    have whole := @wrapped_iff _ maxWidth (orig.text.take maxWidth.toNat) others
      (by rwa [same, parts]) indented short
    rwa [same, parts] at whole
  unfold WrapsAll Wrappable
  rw [wrapWithIndent_iff]
  by_cases done : orig.text.length ≤ maxWidth.toNat
  · have nothing : orig.text.drop maxWidth.toNat = [] := List.drop_eq_nil_of_le done
    refine iff_of_true ⟨1, [], by rw [nothing, wrapLoop_nil], ?_⟩ (.inl done)
    exact (judged [] nothing.symm).mpr (by simp)
  · have proper : orig.text.drop maxWidth.toNat ≠ [] := List.length_pos_iff.mp (by omega)
    rcases Nat.lt_trichotomy indent.text.length maxWidth.toNat with room | full | long
    · obtain ⟨others, returned, same, fits⟩ := wrapLoop_continued room (Nat.lt_succ_self _)
      refine iff_of_true ⟨_, _, returned, (judged others same).mpr fun other member => ?_⟩ (.inr (.inl room))
      exact (fits other member).trans (Nat.le_max_left ..)
    · refine iff_of_false ?_ (by omega)
      rintro ⟨fuel, result, returned, -⟩
      rw [wrapLoop_endless full proper] at returned
      cases returned
    · have small : (orig.text.drop maxWidth.toNat).length < 2 ^ 63 := by
        have := orig.sized
        omega
      have single := judged [_] (List.flatten_singleton)
      constructor
      · rintro ⟨fuel, result, returned, wrapped⟩
        rcases fuel with _ | _ | fuel
        · cases returned
        · rw [wrapLoop_further _ proper] at returned
          cases returned
        · rw [wrapLoop_overhang long indent.sized proper small] at returned
          cases returned
          have fits := single.mp wrapped _ (.head _)
          omega
      · intro wrappable
        refine ⟨2, _, wrapLoop_overhang long indent.sized proper small 0, single.mpr fun other member => ?_⟩
        obtain rfl := List.mem_singleton.mp member
        omega

/-- A text that is broken once, with the rest behind an indent. -/
theorem wrapWithIndent_iff_wrappable_broken :
    WrapsAll ⟨['a', 'b', 'c'], by decide⟩ ⟨[' '], by decide⟩ 2 ↔
      Wrappable ⟨['a', 'b', 'c'], by decide⟩ ⟨[' '], by decide⟩ 2 :=
  wrapWithIndent_iff_wrappable _ _ _ (by decide) (by decide)

/-- With an indent as long as the width the loop never ends, and with a longer one all of the rest
is put on one line. -/
theorem wrapWithIndent_overruns :
    ¬ WrapsAll ⟨['a', 'b'], by decide⟩ ⟨[' '], by decide⟩ 1 ∧
      wrapWithIndent 3 ⟨['a', 'b', 'c'], by decide⟩ ⟨[' ', ' '], by decide⟩ 1 =
        some ['a', '\n', ' ', ' ', 'b', 'c'] ∧
      ¬ Wrapped ['a', 'b', 'c'] [' ', ' '] 1 ['a', '\n', ' ', ' ', 'b', 'c'] := by
  refine ⟨?_, by decide, fun wrapped => absurd wrapped.fits (by decide)⟩
  rintro ⟨fuel, result, returned, -⟩
  cases fuel with
  | zero => cases returned
  | succ fuel =>
    have never : wrapLoop [' '] 1 fuel false ['b'] = none := wrapLoop_endless rfl (by decide) fuel
    rw [wrapWithIndent, wrapLoop_first fuel (by decide)] at returned
    obtain ⟨rest, later, -⟩ := Option.map_eq_some_iff.mp returned
    exact absurd (later.symm.trans never) (by simp)

end Slate
