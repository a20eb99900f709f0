import Slate.Proofs.Base64
import Slate.Proofs.Courses
import Slate.Proofs.SecretLookups
import Slate.SecretRequests

/-! Which contents of secrets arrive on the cluster as they were requested, and are fetched
and copied as they were requested. -/

namespace Slate
open Library Handler

namespace SecretStringBuffer

variable {α : Type} [Inhabited α]

structure Sound (buffer : SecretStringBuffer α) : Prop where
  inside : buffer.size ≤ buffer.data.length
  some : 0 < buffer.data.length

private theorem sound_empty : (empty : SecretStringBuffer α).Sound := ⟨Nat.zero_le _, by simp [empty]⟩

private theorem contents_empty : (empty : SecretStringBuffer α).contents = [] := rfl

/-- There is a cell for one more character. -/
theorem grown {buffer : SecretStringBuffer α} (sound : buffer.Sound) : ∃ cells,
    (if buffer.size = buffer.data.length then buffer.reserve (2 * buffer.size) else buffer) = ⟨cells, buffer.size⟩ ∧
      buffer.size < cells.length ∧ cells.take buffer.size = buffer.contents := by
  have inside := sound.inside
  have some := sound.some
  by_cases full : buffer.size = buffer.data.length
  · have more : 2 * buffer.size > buffer.data.length := by omega
    rw [if_pos full, reserve, if_pos more]
    refine ⟨_, rfl, ?_, List.take_left' (List.length_take_of_le inside)⟩
    rw [List.length_append, List.length_take_of_le inside, List.length_replicate]
    omega
  · rw [if_neg full]
    exact ⟨buffer.data, rfl, by omega, rfl⟩

theorem Sound.put {buffer : SecretStringBuffer α} (sound : buffer.Sound) (c : α) :
    (buffer.put c).Sound ∧ (buffer.put c).contents = buffer.contents ++ [c] := by
  obtain ⟨cells, same, room, kept⟩ := grown sound
  rw [SecretStringBuffer.put, same]
  refine ⟨⟨?_, ?_⟩, ?_⟩
  · simpa using Nat.succ_le_of_lt room
  · simpa using Nat.zero_lt_of_lt room
  · rw [contents, List.take_succ_eq_append_getElem (by simpa using room), List.take_set_of_le le_rfl, kept,
      List.getElem_set_self]

/-- What has been put is what is found. -/
theorem contents_foldl (text : List α) : (text.foldl put empty).contents = text := by
  have all : ∀ text (buffer : SecretStringBuffer α), buffer.Sound →
      (text.foldl put buffer).contents = buffer.contents ++ text := by
    intro text
    induction text with
    | nil => exact fun buffer _ => (List.append_nil _).symm
    | cons c text ih =>
      intro buffer sound
      obtain ⟨next, contents⟩ := sound.put c
      rw [List.foldl_cons, ih _ next, contents, List.append_assoc, List.singleton_append]
  rw [all text empty sound_empty, contents_empty, List.nil_append]

end SecretStringBuffer

theorem encryptContents_eq (coding : SecretCoding) (salt : Nat) (members : Members) :
    encryptContents coding salt members = encryptSecret coding salt (coding.write members) := by
  rw [encryptContents, SecretStringBuffer.contents_foldl, String.ofList_toList]

/-- The text is read to its end from its address. -/
def NulFree (text : String) : Prop := '\x00' ∉ text.toList

instance (text : String) : Decidable (NulFree text) := inferInstanceAs (Decidable (_ ∉ _))

theorem cText_eq_iff (text : String) : cText text = text ↔ NulFree text := by
  rw [cText, NulFree, ← String.toList_inj, String.toList_ofList, List.takeWhile_eq_self_iff]
  constructor
  · intro all member
    simpa using all _ member
  · intro none c member
    simpa using fun same : c = '\x00' => none (same ▸ member)

/-- What is read of a text with a NUL is followed by one. -/
theorem utf8_of_nul {text : String} (nul : ¬ NulFree text) : ∃ rest, utf8 text = utf8 (cText text) ++ 0 :: rest := by
  rw [NulFree, not_not] at nul
  have parts := List.takeWhile_append_dropWhile (p := fun c => decide (c ≠ '\x00')) (l := text.toList)
  cases behind : text.toList.dropWhile (fun c => decide (c ≠ '\x00')) with
  | nil =>
    have all := List.dropWhile_eq_nil_iff.mp behind _ nul
    simp at all
  | cons c rest =>
    have stops := List.head_dropWhile_not (fun c => decide (c ≠ '\x00')) (l := text.toList) (by rw [behind]; exact List.cons_ne_nil _ _)
    simp only [behind, List.head_cons, decide_eq_false_iff_not, not_not] at stops
    refine ⟨rest.flatMap String.utf8EncodeChar, ?_⟩
    rw [behind, stops] at parts
    have zero : utf8 (.ofList (c :: rest)) = 0 :: rest.flatMap String.utf8EncodeChar := by
      rw [utf8, String.toList_ofList, stops, List.flatMap_cons]
      rfl
    have whole : utf8 text = utf8 (cText text) ++ utf8 (.ofList (c :: rest)) := by
      rw [utf8, utf8, utf8, cText, String.toList_ofList, String.toList_ofList, ← List.flatMap_append, stops, parts]
    rw [whole, zero]

private theorem shove_length (output : Base64Output) (bits : Nat) : (output.shove bits).decoded.length = output.decoded.length := by
  simp only [Base64Output.shove]
  split
  · split
    · exact (orInto_length _ _).trans (orInto_length _ _)
    · exact orInto_length _ _
  · exact orInto_length _ _

private theorem decodeCharacters_length {coded : Bytes} {output final : Base64Output}
    (ran : decodeCharacters coded output = .ok final) : final.decoded.length = output.decoded.length := by
  induction coded generalizing output with
  | nil =>
    cases ran
    rfl
  | cons next coded ih =>
    rw [decodeCharacters] at ran
    split at ran
    · cases ran
      rfl
    · split at ran
      · cases ran
      · rw [ih ran, shove_length]

/-- As many bytes are decoded as the length of the coded text says. -/
theorem decodeBase64_length {coded decoded : Bytes} (ran : decodeBase64 coded = .ok decoded) :
    decoded.length = decodedLength coded := by
  obtain ⟨output, done, same⟩ := bind_ok ran
  cases same
  have cells := decodeCharacters_length done
  rw [List.length_replicate] at cells
  exact List.length_take_of_le (by omega)

private theorem decodeCharacters_illegal {values : List Nat} (small : ∀ value ∈ values, value < 2 ^ 6) (rest : Bytes)
    (output : Base64Output) : ∀ final,
      decodeCharacters (values.map (base64lookupTable.getD · 0) ++ 0 :: rest) output ≠ .ok final := by
  induction values generalizing output with
  | nil => exact fun final => nofun
  | cons value values ih =>
    rw [List.map_cons, List.cons_append, decodeCharacters_character (small value (.head _))]
    exact ih (fun other member => small other (.tail _ member)) _

/-- What stands before a NUL is no padding at the end. -/
theorem rdropWhile_kept (front rest : Bytes) :
    front.length + 1 ≤ ((front ++ 0 :: rest).rdropWhile (· == padCharacter)).length := by
  induction rest using List.reverseRecOn with
  | nil =>
    rw [List.rdropWhile_concat_neg _ _ _ (by decide), List.length_append, List.length_singleton]
  | append_singleton rest last ih =>
    have split : front ++ 0 :: (rest ++ [last]) = front ++ 0 :: rest ++ [last] := by simp
    rw [split, List.rdropWhile_concat]
    split
    · exact ih
    · simp only [List.length_append, List.length_cons]
      omega

/-- With a NUL and more behind it, an accepted text is not decoded to the same bytes. -/
theorem decodeBase64_nul {coded decoded : Bytes} (accepted : sanityCheckBase64 coded = true)
    (ran : decodeBase64 coded = .ok decoded) (rest : Bytes) : decodeBase64 (coded ++ 0 :: rest) ≠ .ok decoded := by
  intro again
  obtain ⟨values, pad, small, rfl⟩ := characters_of_accepted accepted
  cases pad with
  | zero =>
    obtain ⟨output, done, -⟩ := bind_ok again
    rw [characters, List.replicate_zero, List.append_nil] at done
    exact decodeCharacters_illegal small rest _ output done
  | succ pad =>
    -- the NUL stops the padding from being discounted
    have short := decodeBase64_length ran
    have long := decodeBase64_length again
    rw [decodedLength_characters small] at short
    have kept := rdropWhile_kept (characters values (pad + 1)) rest
    have count : (characters values (pad + 1)).length = values.length + (pad + 1) := by simp [characters]
    rw [count] at kept
    rw [decodedLength] at long
    omega

end Slate
