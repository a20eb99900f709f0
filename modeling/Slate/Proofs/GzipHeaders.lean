import Slate.Archive

/-! Headers of compressed streams: which of them are read to the end, which are
rejected, and which are read forever. -/

namespace Slate
open Library Execution

inductive Stop
  | throws
  | endless
deriving Repr, DecidableEq

/-- A program that returns, throws or never ends as expected. -/
def Agrees {α β : Type} (related : α → β → Prop) (program : Execution String α) : Except Stop β → Prop
  | .ok expected => ∃ value, program.Gives (.ok value) ∧ related value expected
  | .error .throws => ∃ error, program.Gives (.error error)
  | .error .endless => ¬ program.Ends

section
variable {α β γ δ : Type} {related : α → β → Prop} {follows : γ → δ → Prop} {first : Execution String α}
  {next : α → Execution String γ} {expected : Except Stop β} {rest : β → Except Stop δ}

theorem Agrees.bind (before : Agrees related first expected)
    (after : ∀ value right, related value right → Agrees follows (next value) (rest right)) :
    Agrees follows (first >>= next) (expected >>= rest) := by
  rcases expected with stop | right
  · cases stop with
    | throws =>
      obtain ⟨error, thrown⟩ := before
      exact ⟨error, thrown.bind_error⟩
    | endless => exact fun ended => before ended.of_bind
  · obtain ⟨value, given, alike⟩ := before
    have agreed := after value right alike
    change Agrees follows _ (rest right)
    generalize rest right = last at agreed ⊢
    rcases last with stop | last
    · cases stop with
      | throws =>
        obtain ⟨error, thrown⟩ := agreed
        exact ⟨error, given.bind thrown⟩
      | endless => exact fun ended => agreed (given.bind_ends.mp ended)
    · obtain ⟨answer, answered, alike⟩ := agreed
      exact ⟨answer, given.bind answered, alike⟩

theorem Agrees.ok {value : α} {right : β} (alike : related value right) :
    Agrees related (pure value) (.ok right) :=
  ⟨value, gives_pure.mpr rfl, alike⟩

theorem Agrees.throws {error : String} : Agrees related (Execution.throws error : Execution String α) (.error .throws) :=
  ⟨error, gives_throws.mpr rfl⟩

end

/-- Where a stream goes on: at these bytes, or nowhere after a seek past its end. -/
def At (src : InputStream) : Option Bytes → Prop
  | some rest => src = ⟨rest, false, false⟩
  | none => src.fail = true ∧ src.eof = false

/-- The bytes after the first zero. -/
def pastZero (bytes : Bytes) : Bytes := (bytes.dropWhile (· ≠ 0)).tail

/-- The end of a name or comment. Without one, the character read last is tested forever,
and where none could be read, that is the one that happened to be there. -/
def fieldOf (dummy : UInt8) : Option Bytes → Except Stop (Option Bytes)
  | some (byte :: rest) => if 0 ∈ byte :: rest then .ok (some (pastZero (byte :: rest))) else .error .endless
  | _ => .error (if dummy = 0 then .throws else .endless)

def extraOf : Option Bytes → Except Stop (Option Bytes)
  | some (low :: high :: rest) =>
    .ok (if low.toNat ||| high.toNat <<< 8 ≤ rest.length then some (rest.drop (low.toNat ||| high.toNat <<< 8)) else none)
  | _ => .error .throws

def checksumOf : Option Bytes → Except Stop (Option Bytes)
  | some (_ :: _ :: rest) => .ok (some rest)
  | _ => .error .throws

def flagged (flg mask : UInt8) (field : Option Bytes → Except Stop (Option Bytes)) (position : Option Bytes) :
    Except Stop (Option Bytes) :=
  if flg &&& mask ≠ 0 then field position else .ok position

def fieldsOf (dummies : Dummies) (flg : UInt8) (position : Option Bytes) : Except Stop (Option Bytes) := do
  let position ← flagged flg fextraMask extraOf position
  let position ← flagged flg fnameMask (fieldOf dummies.name) position
  let position ← flagged flg fcommentMask (fieldOf dummies.comment) position
  flagged flg fhcrcMask checksumOf position

def headerOf (dummies : Dummies) : Bytes → Except Stop (Option Bytes)
  | first :: second :: cm :: flg :: _ :: _ :: _ :: _ :: _ :: _ :: rest =>
    if [first, second] = [0x1F, 0x8B] ∧ cm = 0x08 then fieldsOf dummies flg (some rest) else .error .throws
  | _ => .error .throws

/-- The compressed data, if the header is read and the stream can still be read after it. -/
def bodyOf (dummies : Dummies) (bytes : Bytes) : Except Stop Bytes :=
  match headerOf dummies bytes with
  | .ok (some body) => .ok body
  | .ok none => .error .endless
  | .error stop => .error stop

private theorem pastZero_cons_zero {rest : Bytes} : pastZero (0 :: rest) = rest := by simp [pastZero]

private theorem pastZero_cons {byte : UInt8} {rest : Bytes} (other : byte ≠ 0) : pastZero (byte :: rest) = pastZero rest := by
  simp [pastZero, other]

private theorem skipText_endless {src : InputStream} {dummy : UInt8} (bad : src.good = false) (left : dummy ≠ 0) :
    ¬ (skipText src dummy).Ends := by
  refine loop_endless (fun (state : InputStream × UInt8) => state.1.good = false ∧ state.2 ≠ 0) ?_ ⟨bad, left⟩
  rintro ⟨src, dummy⟩ ⟨bad, left⟩
  refine ⟨({ src with fail := true }, dummy), ?_, ?_, left⟩
  · simp only [InputStream.get, bad, Bool.false_eq_true, ↓reduceIte, ne_eq, gives_pure, Except.ok.injEq]
    rw [if_pos left]
  · simp [InputStream.good]

/-- One character is read. -/
theorem skipText_read {byte dummy : UInt8} {rest : Bytes} {outcome : Except String InputStream} (other : byte ≠ 0) :
    (skipText ⟨byte :: rest, false, false⟩ dummy).Gives outcome ↔ (skipText ⟨rest, false, false⟩ byte).Gives outcome := by
  refine Gives.loop_iff ?_
  exact gives_pure.mpr (congrArg Except.ok (if_pos other).symm)

private theorem gives_skipText {bytes : Bytes} {dummy : UInt8} (ended : 0 ∈ bytes) :
    (skipText ⟨bytes, false, false⟩ dummy).Gives (.ok ⟨pastZero bytes, false, false⟩) := by
  induction bytes generalizing dummy with
  | nil => cases ended
  | cons byte rest induction =>
    by_cases last : byte = 0
    · subst last
      rw [pastZero_cons_zero]
      refine Gives.loop_done ?_
      simp
    · rw [skipText_read last, pastZero_cons last]
      refine induction ?_
      rcases List.mem_cons.mp ended with zero | later
      · exact absurd zero.symm last
      · exact later

private theorem skipText_unended {bytes : Bytes} {dummy : UInt8} (unended : 0 ∉ bytes) (left : dummy ≠ 0) :
    ¬ (skipText ⟨bytes, false, false⟩ dummy).Ends := by
  induction bytes generalizing dummy with
  | nil =>
    have pass : (skipText ⟨[], false, false⟩ dummy).Ends ↔ (skipText ⟨[], true, true⟩ dummy).Ends := by
      refine Gives.loop_ends ?_
      exact gives_pure.mpr (congrArg Except.ok (if_pos left).symm)
    rw [pass]
    exact skipText_endless rfl left
  | cons byte rest induction =>
    have other : byte ≠ 0 := fun zero => unended (zero ▸ .head _)
    rintro ⟨outcome, given⟩
    exact induction (fun later => unended (.tail _ later)) other ⟨outcome, (skipText_read other).mp given⟩

private theorem skipText_failed {src : InputStream} (failed : src.fail = true) :
    (skipText src 0).Gives (.ok { src with fail := true }) := by
  refine Gives.loop_done ?_
  simp [failed]

private theorem agrees_skipField {src : InputStream} {position : Option Bytes} {dummy : UInt8} (here : At src position) :
    Agrees At (skipField dummy src) (fieldOf dummy position) := by
  have endless (stuck : ¬ (skipText src dummy).Ends) : ¬ (skipField dummy src).Ends := fun ended => stuck ended.of_bind
  have throws {after : InputStream} (given : (skipText src dummy).Gives (.ok after)) (failed : after.fail = true) :
      ∃ error, (skipField dummy src).Gives (.error error) :=
    ⟨_, given.bind (by simp only [failed, Bool.or_true, ↓reduceIte]; exact gives_throws.mpr rfl)⟩
  cases position with
  | none =>
    obtain ⟨failed, -⟩ := here
    change Agrees At _ (.error (if dummy = 0 then .throws else .endless))
    split
    next zero =>
      subst zero
      exact throws (skipText_failed failed) rfl
    next left => exact endless (skipText_endless (by simp [InputStream.good, failed]) left)
  | some left =>
    cases left with
    | nil =>
      obtain rfl : src = ⟨[], false, false⟩ := here
      change Agrees At _ (.error (if dummy = 0 then .throws else .endless))
      split
      next zero =>
        subst zero
        have given : (skipText ⟨[], false, false⟩ 0).Gives (.ok ⟨[], true, true⟩) := by
          refine Gives.loop_done ?_
          simp
        exact throws given rfl
      next left => exact endless (skipText_unended List.not_mem_nil left)
    | cons byte rest =>
      obtain rfl : src = ⟨byte :: rest, false, false⟩ := here
      rw [fieldOf]
      split
      next ended => exact ⟨_, (gives_skipText ended).bind (gives_pure.mpr rfl), rfl⟩
      next unended =>
        have other : byte ≠ 0 := fun zero => unended (zero ▸ .head _)
        apply endless
        rintro ⟨outcome, given⟩
        exact skipText_unended (fun later => unended (.tail _ later)) other ⟨outcome, (skipText_read other).mp given⟩

private theorem agrees_skipExtra {rest : Bytes} : Agrees At (skipExtra ⟨rest, false, false⟩) (extraOf (some rest)) := by
  match rest with
  | [] | [_] => exact .throws
  | low :: high :: rest =>
    refine .ok ?_
    by_cases inside : low.toNat ||| high.toNat <<< 8 ≤ rest.length
    · simp [At, InputStream.seekForward, inside]
    · simp [At, InputStream.seekForward, inside]

private theorem agrees_skipChecksum {src : InputStream} {position : Option Bytes} (here : At src position) :
    Agrees At (skipChecksum src) (checksumOf position) := by
  match position with
  | none =>
    obtain ⟨failed, -⟩ := here
    rw [skipChecksum, InputStream.read_failed failed]
    simp only [Bool.or_true, ↓reduceIte]
    exact .throws
  | some [] | some [_] =>
    cases here
    exact .throws
  | some (_ :: _ :: rest) =>
    cases here
    exact .ok rfl

theorem agrees_skipFlagged {flg mask : UInt8} {skip : InputStream → Execution String InputStream}
    {field : Option Bytes → Except Stop (Option Bytes)} {src : InputStream} {position : Option Bytes}
    (agrees : Agrees At (skip src) (field position)) (here : At src position) :
    Agrees At (skipFlagged flg mask skip src) (flagged flg mask field position) := by
  rw [skipFlagged, flagged]
  split
  · exact agrees
  · exact .ok here

theorem headerOf_unknown {dummies : Dummies} {first second : UInt8} {rest : Bytes}
    (unknown : ∀ cm after, rest = cm :: after → ¬ ([first, second] = [0x1F, 0x8B] ∧ cm = 0x08)) :
    headerOf dummies (first :: second :: rest) = .error .throws := by
  unfold headerOf
  split
  next same =>
    cases same
    rw [if_neg (unknown _ _ rfl)]
  next => rfl

theorem agrees_gzipHeader {dummies : Dummies} {bytes : Bytes} :
    Agrees At (gzipHeader dummies ⟨bytes, false, false⟩) (headerOf dummies bytes) := by
  match bytes with
  | [] | [_] => exact .throws
  | first :: second :: rest =>
    by_cases id : [first, second] = [0x1F, 0x8B]
    · match rest with
      | [] =>
        rw [headerOf_unknown (by simp)]
        simp [gzipHeader, id]
        exact .throws
      | cm :: rest =>
        by_cases method : cm = 0x08
        · obtain ⟨rfl, rfl⟩ : first = 0x1F ∧ second = 0x8B := by simpa using id
          subst method
          match rest with
          | [] | [_] | [_, _] | [_, _, _] | [_, _, _, _] | [_, _, _, _, _] | [_, _, _, _, _, _] => exact .throws
          | flg :: _ :: _ :: _ :: _ :: _ :: _ :: rest =>
            rw [headerOf, if_pos ⟨rfl, rfl⟩]
            exact .bind (agrees_skipFlagged agrees_skipExtra rfl) fun _ _ here =>
              .bind (agrees_skipFlagged (agrees_skipField here) here) fun _ _ here =>
              .bind (agrees_skipFlagged (agrees_skipField here) here) fun _ _ here =>
              agrees_skipFlagged (agrees_skipChecksum here) here
        · rw [headerOf_unknown (by simp [method])]
          simp [gzipHeader, method, id]
          exact .throws
    · rw [headerOf_unknown (by simp [id])]
      simp [gzipHeader, id]
      exact .throws

end Slate
