import Slate.Fixup
import Slate.Library.EditDistance

/-! The distance that is computed with one row is the edit distance, and the suggested instances
are the closest ones. -/

namespace Slate
open Library

variable {α : Type} [DecidableEq α]

/-- The prefixes of a list behind another one. -/
def extensions : List α → List α → List (List α)
  | _, [] => []
  | front, a :: source => (front ++ [a]) :: extensions (front ++ [a]) source

/-- The row for a target: the distance of each prefix of the source from it. -/
def distanceRow (source target : List α) : List Nat :=
  ([] :: extensions [] source).map (editDistance · target)

private theorem updateCells_eq (front source target : List α) (b : α) :
    updateCells b (editDistance front (target ++ [b])) (editDistance front target) source
      ((extensions front source).map (editDistance · target)) =
      (extensions front source).map (editDistance · (target ++ [b])) := by
  induction source generalizing front with
  | nil => rfl
  | cons a source ih => rw [extensions, List.map_cons, List.map_cons, updateCells, ← EditDistance.concat, ih]

private theorem updateRow_eq (source target : List α) (b : α) :
    updateRow source (distanceRow source target) b = distanceRow source (target ++ [b]) := by
  have first : editDistance [] target + 1 = editDistance [] (target ++ [b]) := by
    rw [EditDistance.nil_left, EditDistance.nil_left, List.length_append, List.length_singleton]
  rw [distanceRow, List.map_cons, updateRow, first, updateCells_eq]
  rfl

omit [DecidableEq α] in
private theorem extensions_length (front source : List α) :
    (extensions front source).map List.length = List.range' (front.length + 1) source.length := by
  induction source generalizing front with
  | nil => rfl
  | cons a source ih =>
    rw [extensions, List.map_cons, ih, List.length_append, List.length_singleton, List.length_cons, List.range'_succ]

private theorem distanceRow_nil (source : List α) : distanceRow source [] = List.range (source.length + 1) := by
  have lengths : distanceRow source [] = ([] :: extensions [] source).map List.length :=
    List.map_congr_left fun front _ => EditDistance.nil_right front
  rw [lengths, List.map_cons, extensions_length, List.range_eq_range', List.range'_succ]
  rfl

omit [DecidableEq α] in
private theorem extensions_last (front source : List α) : (front :: extensions front source)[source.length]? = some (front ++ source) := by
  induction source generalizing front with
  | nil => simp
  | cons a source ih =>
    rw [extensions, List.length_cons, List.getElem?_cons_succ, ih, List.append_assoc, List.singleton_append]

/-- The last cell of the row is the distance of the whole lists. -/
theorem distanceRow_last (source target : List α) :
    (distanceRow source target).getD source.length 0 = editDistance source target := by
  rw [List.getD_eq_getElem?_getD, distanceRow, List.getElem?_map, extensions_last]
  rfl

private theorem foldl_updateRow (source front target : List α) :
    target.foldl (updateRow source) (distanceRow source front) = distanceRow source (front ++ target) := by
  induction target generalizing front with
  | nil => rw [List.foldl_nil, List.append_nil]
  | cons b target ih => rw [List.foldl_cons, updateRow_eq, ih, List.append_assoc, List.singleton_append]

private theorem rowDistance_eq (source target : List α) : rowDistance source target = editDistance source target := by
  rw [rowDistance, ← distanceRow_nil, foldl_updateRow, List.nil_append, distanceRow_last]

theorem levensteinDistance_eq_editDistance (source target : List α) :
    levensteinDistance source target = editDistance source target := by
  unfold levensteinDistance
  split
  · rw [rowDistance_eq, EditDistance.symm]
  · exact rowDistance_eq source target

/-- The distance of an instance from the text that was given for it. -/
def ListedInstance.distance (badID : StdString) (candidate : ListedInstance) : Nat :=
  min (editDistance badID.text candidate.id.text) (editDistance badID.text candidate.name.text)

private theorem ListedInstance.distance_lt (badID : StdString) (candidate : ListedInstance) :
    candidate.distance badID < sizeMax := by
  have bound := EditDistance.le_length badID.text candidate.id.text
  have first := badID.sized
  have second := candidate.id.sized
  have least : candidate.distance badID ≤ editDistance badID.text candidate.id.text := Nat.min_le_left ..
  unfold sizeMax
  omega

/-- The candidates are those of the read instances that are at the least distance. -/
structure BestFits.Sound (badID : StdString) (read : List ListedInstance) (best : BestFits) : Prop where
  least : ∀ candidate ∈ read, best.bestdist ≤ candidate.distance badID
  attained : best.bestdist = sizeMax ∧ read = [] ∨ ∃ candidate ∈ read, candidate.distance badID = best.bestdist
  fits : best.bestfits = read.filter fun candidate => candidate.distance badID = best.bestdist

private theorem BestFits.consider_eq (badID : StdString) (best : BestFits) (candidate : ListedInstance) :
    best.consider badID candidate =
      if candidate.distance badID < best.bestdist then ⟨candidate.distance badID, [candidate]⟩
      else if candidate.distance badID = best.bestdist then { best with bestfits := best.bestfits ++ [candidate] }
      else best := by
  rw [consider, levensteinDistance_eq_editDistance, levensteinDistance_eq_editDistance]
  rfl

private theorem BestFits.sound_consider {badID : StdString} {read : List ListedInstance} {best : BestFits}
    (sound : best.Sound badID read) (candidate : ListedInstance) :
    (best.consider badID candidate).Sound badID (read ++ [candidate]) := by
  have among (other : ListedInstance) : other ∈ read ++ [candidate] ↔ other ∈ read ∨ other = candidate := by simp
  rw [consider_eq]
  split
  case isTrue closer =>
    refine ⟨fun other member => ?_, .inr ⟨candidate, by simp, rfl⟩, ?_⟩
    · rcases (among other).mp member with old | rfl
      · exact Nat.le_of_lt (closer.trans_le (sound.least other old))
      · exact Nat.le_refl _
    · have farther : read.filter (fun other => other.distance badID = candidate.distance badID) = [] := by
        rw [List.filter_eq_nil_iff]
        intro other member
        have := sound.least other member
        simp only [decide_eq_true_eq]
        omega
      rw [List.filter_append, farther]
      simp
  case isFalse further =>
    have least : ∀ other ∈ read ++ [candidate], best.bestdist ≤ other.distance badID := by
      intro other member
      rcases (among other).mp member with old | rfl
      · exact sound.least other old
      · exact Nat.le_of_not_lt further
    have attained : ∃ other ∈ read ++ [candidate], other.distance badID = best.bestdist := by
      rcases sound.attained with ⟨initial, -⟩ | ⟨other, member, same⟩
      · exact absurd (initial ▸ candidate.distance_lt badID) further
      · exact ⟨other, List.mem_append_left _ member, same⟩
    split
    case isTrue same =>
      refine ⟨least, .inr attained, ?_⟩
      rw [List.filter_append, ← sound.fits]
      simp [same]
    case isFalse other =>
      refine ⟨least, .inr attained, ?_⟩
      rw [List.filter_append, ← sound.fits]
      simp [other]

private theorem BestFits.sound_foldl {badID : StdString} {read : List ListedInstance} {best : BestFits}
    (sound : best.Sound badID read) (items : List ListedInstance) :
    (items.foldl (consider badID) best).Sound badID (read ++ items) := by
  induction items generalizing read best with
  | nil => simpa using sound
  | cons candidate items ih =>
    have whole : read ++ candidate :: items = read ++ [candidate] ++ items := by simp
    rw [List.foldl_cons, whole]
    exact ih (sound_consider sound candidate)

private theorem BestFits.sound_initial (badID : StdString) : (BestFits.mk sizeMax []).Sound badID [] :=
  ⟨by simp, .inl ⟨rfl, rfl⟩, rfl⟩

/-- The distance is the edit distance, and the best fits are the instances at the least distance
from the given text. -/
theorem findBestFits_closest :
    (∀ source target : List Char, levensteinDistance source target = editDistance source target) ∧
      ∀ (badID : StdString) (items : List ListedInstance), findBestFits badID items =
        items.filter fun candidate => ∀ other ∈ items, candidate.distance badID ≤ other.distance badID := by
  refine ⟨levensteinDistance_eq_editDistance, fun badID items => ?_⟩
  have sound := BestFits.sound_foldl (BestFits.sound_initial badID) items
  rw [List.nil_append] at sound
  rw [findBestFits, sound.fits]
  apply List.filter_congr
  intro candidate member
  apply decide_eq_decide.mpr
  constructor
  · intro same other present
    exact same ▸ sound.least other present
  · intro closest
    rcases sound.attained with ⟨-, rfl⟩ | ⟨other, present, same⟩
    · cases member
    · exact Nat.le_antisymm (same ▸ closest other present) (sound.least candidate member)

end Slate
