import Mathlib.Data.List.Basic

/-! Lists that are cut at separators, where a separator right behind an escape is none. -/

namespace Slate.Library

variable {α : Type} [DecidableEq α]

/-- Lines of which each is ended by the separator. -/
theorem splitOn_ended {sep : α} {lines : List (List α)} (unbroken : ∀ line ∈ lines, sep ∉ line) :
    (lines.flatMap fun line => line ++ [sep]).splitOn sep = lines ++ [[]] := by
  induction lines with
  | nil => rfl
  | cons line lines ih =>
    rw [List.flatMap_cons, List.append_assoc, List.singleton_append,
      List.splitOn_append_cons_self_of_not_mem (unbroken line (.head _)),
      ih fun other member => unbroken other (.tail _ member)]
    rfl

namespace Separators

/-- Whether what follows the items has an escape right before it. -/
def escapedAfter (esc : α) (escaped : Bool) (items : List α) : Bool :=
  items.foldl (fun _ item => decide (item = esc)) escaped

/-- Each separator among the items has an escape right before it. -/
def Guarded (sep esc : α) (escaped : Bool) (items : List α) : Prop :=
  ∀ before after, items = before ++ sep :: after → escapedAfter esc escaped before = true

def cut (sep esc : α) : Bool → List α → List (List α)
  | _, [] => [[]]
  | escaped, item :: items =>
    let pieces := cut sep esc (decide (item = esc)) items
    if item = sep ∧ escaped = false then [] :: pieces
    else (item :: pieces.headD []) :: pieces.tail

variable {sep esc : α}

@[simp] theorem escapedAfter_nil (escaped : Bool) : escapedAfter esc escaped [] = escaped := rfl

@[simp] theorem escapedAfter_cons (escaped : Bool) (item : α) (items : List α) :
    escapedAfter esc escaped (item :: items) = escapedAfter esc (decide (item = esc)) items := rfl

theorem escapedAfter_append (escaped : Bool) (first second : List α) :
    escapedAfter esc escaped (first ++ second) = escapedAfter esc (escapedAfter esc escaped first) second :=
  List.foldl_append

theorem guarded_nil (escaped : Bool) : Guarded sep esc escaped [] := by
  intro before after same
  cases before <;> cases same

theorem guarded_cons {escaped : Bool} {item : α} {items : List α} : Guarded sep esc escaped (item :: items) ↔
    (item = sep → escaped = true) ∧ Guarded sep esc (decide (item = esc)) items := by
  constructor
  · intro guarded
    refine ⟨fun same => guarded [] items (same ▸ rfl), fun before after same => ?_⟩
    exact guarded (item :: before) after (by rw [same]; rfl)
  · rintro ⟨first, others⟩ before after same
    cases before with
    | nil =>
      cases same
      exact first rfl
    | cons other before =>
      obtain ⟨rfl, rest⟩ := List.cons.inj same
      exact others before after rest

theorem guarded_append {escaped : Bool} {first second : List α} : Guarded sep esc escaped (first ++ second) ↔
    Guarded sep esc escaped first ∧ Guarded sep esc (escapedAfter esc escaped first) second := by
  induction first generalizing escaped with
  | nil => exact ⟨fun guarded => ⟨guarded_nil escaped, guarded⟩, fun both => both.2⟩
  | cons item first ih => rw [List.cons_append, guarded_cons, guarded_cons, ih, escapedAfter_cons, and_assoc]

theorem guarded_of_not_mem {escaped : Bool} {items : List α} (none : sep ∉ items) : Guarded sep esc escaped items := by
  rintro before after rfl
  exact absurd (List.mem_append_right before (.head after)) none

theorem escapedAfter_of_not_mem {items : List α} (none : esc ∉ items) : escapedAfter esc false items = false := by
  induction items with
  | nil => rfl
  | cons item items ih =>
    have other : item ≠ esc := fun same => none (same ▸ .head _)
    rw [escapedAfter_cons, decide_eq_false other]
    exact ih fun member => none (.tail _ member)

theorem cut_guarded {escaped : Bool} {items : List α} (guarded : Guarded sep esc escaped items) :
    cut sep esc escaped items = [items] := by
  induction items generalizing escaped with
  | nil => rfl
  | cons item items ih =>
    obtain ⟨first, others⟩ := guarded_cons.mp guarded
    have inside : ¬ (item = sep ∧ escaped = false) := by
      rintro ⟨same, free⟩
      rw [first same] at free
      cases free
    rw [cut, ih others, if_neg inside]
    rfl

/-- A separator behind guarded items ends their piece. -/
theorem cut_append (differ : sep ≠ esc) {escaped : Bool} {items : List α} (guarded : Guarded sep esc escaped items)
    (free : escapedAfter esc escaped items = false) (rest : List α) :
    cut sep esc escaped (items ++ sep :: rest) = items :: cut sep esc false rest := by
  induction items generalizing escaped with
  | nil =>
    rw [List.nil_append, cut, if_pos ⟨rfl, free⟩, decide_eq_false differ]
  | cons item items ih =>
    obtain ⟨first, others⟩ := guarded_cons.mp guarded
    have inside : ¬ (item = sep ∧ escaped = false) := by
      rintro ⟨same, free⟩
      rw [first same] at free
      cases free
    rw [List.cons_append, cut, ih others free, if_neg inside]
    rfl

structure Pieces (sep esc : α) (escaped : Bool) (first : List α) (others : List (List α)) : Prop where
  guardedFirst : Guarded sep esc escaped first
  guarded : ∀ piece ∈ others, Guarded sep esc false piece
  closed : others ≠ [] → escapedAfter esc escaped first = false
  between : ∀ piece ∈ others.dropLast, escapedAfter esc false piece = false

theorem cut_pieces (differ : sep ≠ esc) (escaped : Bool) (items : List α) :
    ∃ first others, cut sep esc escaped items = first :: others ∧ Pieces sep esc escaped first others := by
  induction items generalizing escaped with
  | nil =>
    refine ⟨[], [], rfl, guarded_nil _, ?_, fun more => absurd rfl more, ?_⟩
    · exact List.forall_mem_nil _
    · exact List.forall_mem_nil _
  | cons item items ih =>
    obtain ⟨first, others, same, pieces⟩ := ih (decide (item = esc))
    rw [cut, same]
    by_cases ends : item = sep ∧ escaped = false
    · obtain ⟨rfl, rfl⟩ := ends
      rw [decide_eq_false differ] at pieces
      refine ⟨[], first :: others, if_pos ⟨rfl, rfl⟩, guarded_nil _, ?_, fun _ => rfl, ?_⟩
      · exact List.forall_mem_cons.mpr ⟨pieces.guardedFirst, pieces.guarded⟩
      · intro piece member
        cases others with
        | nil => cases member
        | cons second others =>
          rcases List.mem_cons.mp member with rfl | later
          · exact pieces.closed (List.cons_ne_nil _ _)
          · exact pieces.between piece later
    · refine ⟨item :: first, others, if_neg ends, guarded_cons.mpr ⟨fun sep_ => ?_, pieces.guardedFirst⟩, pieces.guarded,
        fun more => pieces.closed more, pieces.between⟩
      exact (Bool.not_eq_false _).mp fun free => ends ⟨sep_, free⟩

/-- Pieces that were joined are found again exactly if each separator in one of them has an
escape before it, and none but the last ends with an escape. -/
theorem cut_intercalate (differ : sep ≠ esc) {pieces : List (List α)} (some_ : pieces ≠ []) :
    cut sep esc false ([sep].intercalate pieces) = pieces ↔
      (∀ piece ∈ pieces, Guarded sep esc false piece) ∧ ∀ piece ∈ pieces.dropLast, escapedAfter esc false piece = false := by
  constructor
  · intro same
    obtain ⟨first, others, found, facts⟩ := cut_pieces differ false ([sep].intercalate pieces)
    obtain rfl : pieces = first :: others := same.symm.trans found
    refine ⟨List.forall_mem_cons.mpr ⟨facts.guardedFirst, facts.guarded⟩, fun piece member => ?_⟩
    cases others with
    | nil => cases member
    | cons second others =>
      rcases List.mem_cons.mp member with rfl | later
      · exact facts.closed (List.cons_ne_nil _ _)
      · exact facts.between piece later
  · rintro ⟨guarded, closed⟩
    induction pieces with
    | nil => exact absurd rfl some_
    | cons first others ih =>
      obtain ⟨guardedFirst, guardedOthers⟩ := List.forall_mem_cons.mp guarded
      cases others with
      | nil => rw [List.intercalate_singleton, cut_guarded guardedFirst]
      | cons second others =>
        have rest := ih (List.cons_ne_nil _ _) guardedOthers fun piece member => closed piece (.tail _ member)
        rw [List.intercalate_cons_cons, List.append_assoc, List.singleton_append,
          cut_append differ guardedFirst (closed first (.head _)), rest]

end Separators

end Slate.Library
