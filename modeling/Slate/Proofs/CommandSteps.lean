import Slate.Proofs.FedPrograms

/-! What each step of a command does: none of the bytes of an output is lost, and all but the reading of
the outputs is what the program does alone. -/

namespace Slate
open Library

namespace Channel

structure Took (channel : Channel) (taken : Bytes) (after : Channel) : Prop where
  bytes : taken ++ (after.unread ++ after.pipe) = channel.unread ++ channel.pipe
  less : after.pipe.length ≤ channel.pipe.length
  collected : after.collected = channel.collected
  wrote : after.wrote = channel.wrote
  isOpen : after.isOpen = channel.isOpen
  readEOF : after.readEOF = true →
    channel.readEOF = true ∨
    channel.isOpen = false ∧ channel.pipe = [] ∧ channel.unread = [] ∧ after.pipe = [] ∧ after.unread = []
  keeps : channel.readEOF = true → channel.unread = [] → channel.pipe = [] →
    after.readEOF = true ∧ after.unread = [] ∧ after.pipe = []

def size (channel : Channel) : Nat := 3 * channel.pipe.length + 2 * channel.unread.length

theorem Took.refl (channel : Channel) : channel.Took [] channel where
  bytes := rfl
  less := le_rfl
  collected := rfl
  wrote := rfl
  isOpen := rfl
  readEOF := Or.inl
  keeps ended noneUnread nonePiped := ⟨ended, noneUnread, nonePiped⟩

theorem Took.size_le {channel after : Channel} {taken : Bytes} (took : channel.Took taken after) :
    after.size + 2 * taken.length ≤ channel.size := by
  have lengths := congrArg List.length took.bytes
  have less := took.less
  simp only [List.length_append] at lengths
  unfold size
  omega

private theorem isReady_iff (channel : Channel) :
    channel.isReady = true ↔ channel.pipe ≠ [] ∨ channel.isOpen = false := by
  simp [isReady]

theorem underflow_none {channel : Channel} :
    channel.underflow = none ↔
      channel.readEOF = false ∧ channel.unread = [] ∧ channel.pipe = [] ∧ channel.isOpen = true := by
  unfold underflow
  split
  next ended => simp [ended]
  next notEnded =>
    split
    next some_ => simp [some_]
    next noneUnread =>
      rw [not_not] at noneUnread
      have ready := isReady_iff channel
      split
      next waits => simp_all
      next => split <;> simp_all

/-- What a child changes of an output: it adds some bytes to it while it is open. -/
structure Written (channel after : Channel) (bytes : Bytes) : Prop where
  pipe : after.pipe = channel.pipe ++ bytes
  wrote : after.wrote = channel.wrote ++ bytes
  unread : after.unread = channel.unread
  readEOF : after.readEOF = channel.readEOF
  collected : after.collected = channel.collected
  isOpen : channel.isOpen = false → after.isOpen = false
  some_ : channel.isOpen = false → bytes = []

theorem Written.refl (channel : Channel) : channel.Written channel [] where
  pipe := (List.append_nil _).symm
  wrote := (List.append_nil _).symm
  unread := rfl
  readEOF := rfl
  collected := rfl
  isOpen := id
  some_ _ := rfl

theorem Written.closed (channel : Channel) : channel.Written { channel with isOpen := false } [] :=
  { Written.refl channel with isOpen := fun _ => rfl }

/-- Once the buffer is filled, what is asked for comes out of it. -/
theorem underflow_took {channel filled : Channel} (ran : channel.underflow = some filled) :
    channel.Took [] filled ∧ (filled.unread = [] → filled.readEOF = true) := by
  unfold underflow at ran
  split at ran
  next ended =>
    cases ran
    exact ⟨.refl _, fun _ => ended⟩
  next notEnded =>
    split at ran
    next some_ =>
      cases ran
      exact ⟨.refl _, fun noneUnread => absurd noneUnread some_⟩
    next noneUnread =>
      rw [not_not] at noneUnread
      split at ran
      next => cases ran
      next ready =>
        split at ran
        next nonePiped =>
          cases ran
          have closed : channel.isOpen = false := by simpa [isReady, nonePiped] using ready
          exact ⟨{ Took.refl channel with
            readEOF := fun _ => .inr ⟨closed, nonePiped, noneUnread, nonePiped, noneUnread⟩
            keeps := fun ended => absurd ended notEnded }, fun _ => rfl⟩
        next somePiped =>
          cases ran
          refine ⟨{ Took.refl channel with
            bytes := ?_
            less := ?_
            readEOF := Or.inl
            keeps := fun ended => absurd ended notEnded }, fun none_ => ?_⟩
          · simp [noneUnread]
          · simp
          · exact absurd none_ (by simp [bufferSize, somePiped])

theorem sgetn_none {channel : Channel} {count : Nat} : channel.sgetn count = none ↔ channel.underflow = none := by
  simp [sgetn]

private theorem sgetn_took {channel after : Channel} {taken : Bytes} {count : Nat}
    (ran : channel.sgetn count = some (taken, after)) :
    channel.Took taken after ∧ (0 < count → taken = [] → after.readEOF = true) := by
  obtain ⟨filled, found, same⟩ := Option.map_eq_some_iff.mp ran
  cases same
  obtain ⟨took, empty⟩ := underflow_took found
  refine ⟨{ took with
    bytes := ?_
    readEOF := fun ended => ?_
    keeps := fun ended noneUnread nonePiped => ?_ }, fun some_ none_ => ?_⟩
  · rw [← List.append_assoc, List.take_append_drop]
    exact took.bytes
  · rcases took.readEOF ended with already | ⟨closed, nonePiped, noneUnread, pipeLeft, unreadLeft⟩
    · exact .inl already
    · exact .inr ⟨closed, nonePiped, noneUnread, pipeLeft, by rw [unreadLeft, List.drop_nil]⟩
  · obtain ⟨still, unreadLeft, pipeLeft⟩ := took.keeps ended noneUnread nonePiped
    exact ⟨still, by rw [unreadLeft, List.drop_nil], pipeLeft⟩
  · rcases List.take_eq_nil_iff.mp none_ with zero | none_
    · omega
    · exact empty none_

end Channel

namespace Parent

/-- What was taken from an output and not added to the result. -/
def taken : Parent → Output → Bytes
  | readingSome from_ bytes, stream => if from_ = stream then bytes else []
  | _, _ => []

/-- Nothing was read from an output yet. -/
def Before : Parent → Output → Prop
  | writing _, _ => True
  | reading .stdout, .stderr => True
  | readingSome .stdout _, .stderr => True
  | _, _ => False

/-- An output was read up to its end. -/
def Past : Parent → Output → Prop
  | reading .stderr, .stdout => True
  | readingSome .stderr _, .stdout => True
  | waiting, _ => True
  | returned _, _ => True
  | _, _ => False

def feeding : Parent → Option Bytes
  | writing input => some input
  | _ => none

def phase : Parent → Nat
  | writing _ => 6
  | reading .stdout => 4
  | readingSome .stdout _ => 5
  | reading .stderr => 2
  | readingSome .stderr _ => 3
  | waiting => 1
  | returned _ => 0

private theorem before_reading {from_ stream : Output} : (reading from_).Before stream ↔ from_ = .stdout ∧ stream = .stderr := by
  cases from_ <;> cases stream <;> simp [Before]

private theorem before_readingSome {from_ stream : Output} {bytes : Bytes} :
    (readingSome from_ bytes).Before stream ↔ from_ = .stdout ∧ stream = .stderr := by
  cases from_ <;> cases stream <;> simp [Before]

theorem past_reading {from_ stream : Output} : (reading from_).Past stream ↔ from_ = .stderr ∧ stream = .stdout := by
  cases from_ <;> cases stream
  · exact iff_of_false id (by decide)
  · exact iff_of_false id (by decide)
  · exact iff_of_true trivial (by decide)
  · exact iff_of_false id (by decide)

theorem past_readingSome {from_ stream : Output} {bytes : Bytes} :
    (readingSome from_ bytes).Past stream ↔ from_ = .stderr ∧ stream = .stdout := by
  cases from_ <;> cases stream
  · exact iff_of_false id (by decide)
  · exact iff_of_false id (by decide)
  · exact iff_of_true trivial (by decide)
  · exact iff_of_false id (by decide)

private theorem not_before_next {from_ stream : Output} : ¬ (nextOutput from_).Before stream := by
  cases from_ <;> simp [nextOutput, Before]

private theorem past_next {from_ stream : Output} (past : (nextOutput from_).Past stream) :
    stream = from_ ∨ from_ = .stderr ∧ stream = .stdout := by
  cases from_ <;> cases stream
  · exact .inl rfl
  · exact past.elim
  · exact .inr ⟨rfl, rfl⟩
  · exact .inl rfl

end Parent

namespace Running

variable {σ : Type} {capacities : Capacities} {program : σ → Act σ} {running after : Running σ}

def shown (running : Running σ) : Fed σ where
  child := running.child
  feeding := running.parent.feeding
  stdin := running.stdin
  stdinEnded := running.stdinEnded
  stdinKept := running.stdinKept
  wrote stream := (running.channel stream).wrote
  isOpen stream := (running.channel stream).isOpen

/-- What is left to do for this program alone. -/
def left (running : Running σ) : Nat :=
  running.parent.phase + (running.channel .stdout).size + (running.channel .stderr).size

theorem channel_setChannel (running : Running σ) (stream other : Output) (channel : Channel) :
    (running.setChannel stream channel).channel other = if other = stream then channel else running.channel other :=
  Function.update_apply ..

inductive ParentMove (capacities : Capacities) (running : Running σ) : Running σ → Prop
  | ended (all : running.parent = .writing []) : ParentMove capacities running running.endInput
  | writes {part : Nat} {input : Bytes} (left : running.parent = .writing input) (some_ : input ≠ [])
      (kept : running.stdinKept = true) (room : running.stdin.length < capacities.stdin) :
      ParentMove capacities running
        (let result := accepted (capacities.stdin - running.stdin.length) part input.length
         { running with parent := .writing (input.drop result), stdin := running.stdin ++ input.take result })
  | fails {input : Bytes} (left : running.parent = .writing input) (some_ : input ≠ [])
      (lost : running.stdinKept = false) : ParentMove capacities running running
  | begins {stream : Output} {taken : Bytes} {channel : Channel} (reads : running.parent = .reading stream)
      (took : (running.channel stream).Took taken channel) (some_ : taken ≠ []) :
      ParentMove capacities running { running.setChannel stream channel with parent := .readingSome stream taken }
  | finishes {stream : Output} {channel : Channel} (reads : running.parent = .reading stream)
      (took : (running.channel stream).Took [] channel) (ended : channel.readEOF = true) :
      ParentMove capacities running { running.setChannel stream channel with parent := nextOutput stream }
  | adds {stream : Output} {taken more : Bytes} {channel : Channel} {next : Parent}
      (reads : running.parent = .readingSome stream taken) (took : (running.channel stream).Took more channel)
      (goes : next = .reading stream ∨ next = nextOutput stream ∧ channel.readEOF = true) :
      ParentMove capacities running
        { running.setChannel stream { channel with collected := channel.collected ++ (taken ++ more) } with
          parent := next }
  | gets {status : UInt8} (waits : running.parent = .waiting) (exited : running.child = .inr status) :
      ParentMove capacities running { running with parent := .returned status }

theorem parentStep_move {part : Nat} (ran : running.parentStep capacities part = some after) :
    ParentMove capacities running after := by
  unfold parentStep at ran
  split at ran
  next all =>
    cases ran
    exact .ended all
  next input _ left =>
    unfold xsputn at ran
    have some_ : input ≠ [] := by
      rintro rfl
      contradiction
    split at ran
    next kept =>
      by_cases full : capacities.stdin - running.stdin.length = 0
      · simp [full] at ran
      · simp only [full, if_false, Option.some.injEq] at ran
        subst ran
        exact .writes left some_ kept (by omega)
    next lost =>
      cases ran
      exact .fails left some_ (by simpa using lost)
  next stream reads =>
    obtain ⟨⟨taken, channel⟩, found, same⟩ := Option.map_eq_some_iff.mp ran
    obtain ⟨took, ended⟩ := Channel.sgetn_took found
    dsimp only at same
    subst same
    split
    next none_ =>
      subst none_
      exact .finishes reads took (ended Nat.one_pos rfl)
    next some_ => exact .begins reads took some_
  next stream taken reads =>
    unfold readSome at ran
    dsimp only at ran
    have same (next : Parent) : ({ running.setChannel stream { running.channel stream with
        collected := (running.channel stream).collected ++ taken } with parent := next } : Running σ) =
        { running.setChannel stream { running.channel stream with
          collected := (running.channel stream).collected ++ (taken ++ []) } with parent := next } := by
      rw [List.append_nil]
    split at ran
    next ended =>
      cases ran
      rw [same]
      refine .adds reads (.refl _) (.inr ⟨rfl, ?_⟩)
      unfold Channel.inAvail Channel.showmanyc at ended
      split at ended
      next => omega
      next =>
        split at ended
        next readEOF => exact readEOF
        next => split at ended <;> omega
    next =>
      split at ran
      next =>
        cases ran
        rw [same]
        exact .adds reads (.refl _) (.inl rfl)
      next =>
        obtain ⟨⟨more, channel⟩, found, same⟩ := Option.map_eq_some_iff.mp ran
        dsimp only at same
        subst same
        exact .adds reads (Channel.sgetn_took found).1 (.inl rfl)
  next waits =>
    split at ran
    next => cases ran
    next status exited =>
      cases ran
      exact .gets waits exited
  next => cases ran

/-- What holds of a command at any time: no byte is lost, and an output is past once it has ended. -/
structure Sound (capacities : Capacities) (running : Running σ) : Prop where
  bytes : ∀ stream, (running.channel stream).collected ++ (running.parent.taken stream ++
    ((running.channel stream).unread ++ (running.channel stream).pipe)) = (running.channel stream).wrote
  stdinWithin : running.stdin.length ≤ capacities.stdin
  finished : ∀ stream, (running.channel stream).readEOF = true → (running.channel stream).isOpen = false ∧
    (running.channel stream).unread = [] ∧ (running.channel stream).pipe = []
  untouched : ∀ stream, running.parent.Before stream → (running.channel stream).readEOF = false ∧
    (running.channel stream).pipe = (running.channel stream).wrote
  past : ∀ stream, running.parent.Past stream → (running.channel stream).readEOF = true
  gone : ∀ status, running.child = .inr status →
    running.stdinKept = false ∧ ∀ stream, (running.channel stream).isOpen = false
  done : ∀ status, running.parent = .returned status → running.child = .inr status

theorem runCommand_sound (capacities : Capacities) (first : σ) (input : Option Bytes) :
    (Running.runCommand first input).Sound capacities := by
  cases input with
  | none => exact {
      bytes := fun stream => rfl
      stdinWithin := Nat.zero_le _
      finished := fun _ ended => nomatch ended
      untouched := fun _ _ => ⟨rfl, rfl⟩
      past := fun stream past => by cases stream <;> exact past.elim
      gone := fun _ exited => nomatch exited
      done := fun _ returned => nomatch returned }
  | some input => exact {
      bytes := fun stream => rfl
      stdinWithin := Nat.zero_le _
      finished := fun _ ended => nomatch ended
      untouched := fun _ _ => ⟨rfl, rfl⟩
      past := fun stream past => by cases stream <;> exact past.elim
      gone := fun _ exited => nomatch exited
      done := fun _ returned => nomatch returned }

private theorem took_finished {channel next : Channel} {taken : Bytes} (took : channel.Took taken next)
    (finished : channel.readEOF = true → channel.isOpen = false ∧ channel.unread = [] ∧ channel.pipe = [])
    (ended : next.readEOF = true) : next.isOpen = false ∧ next.unread = [] ∧ next.pipe = [] := by
  rw [took.isOpen]
  rcases took.readEOF ended with already | ⟨closed, -, -, pipeLeft, unreadLeft⟩
  · obtain ⟨closed, noneUnread, nonePiped⟩ := finished already
    exact ⟨closed, (took.keeps already noneUnread nonePiped).2⟩
  · exact ⟨closed, unreadLeft, pipeLeft⟩

/-- What a read of one output keeps. -/
theorem Sound.read {stream : Output} {channel : Channel} {taken : Bytes} (sound : running.Sound capacities)
    (took : (running.channel stream).Took taken channel) (next : Parent) (collected : Bytes)
    (bytes : channel.collected ++ (collected ++ (next.taken stream ++ (channel.unread ++ channel.pipe))) =
      channel.wrote)
    (aside : ∀ other, other ≠ stream → next.taken other = running.parent.taken other)
    (before : ∀ other, next.Before other → other ≠ stream ∧ running.parent.Before other)
    (past : ∀ other, next.Past other → running.parent.Past other ∨ other = stream ∧ channel.readEOF = true)
    (notDone : ∀ status, next ≠ .returned status) :
    ({ running.setChannel stream { channel with collected := channel.collected ++ collected } with parent := next } :
      Running σ).Sound capacities where
  bytes other := by
    dsimp only
    rw [channel_setChannel]
    split
    next same =>
      subst same
      rw [List.append_assoc]
      exact bytes
    next different =>
      rw [aside other different]
      exact sound.bytes other
  stdinWithin := sound.stdinWithin
  finished other := by
    have ends := took_finished took (sound.finished stream)
    dsimp only
    rw [channel_setChannel]
    split
    next => exact ends
    next => exact sound.finished other
  untouched other yet := by
    obtain ⟨different, earlier⟩ := before other yet
    dsimp only
    rw [channel_setChannel, if_neg different]
    exact sound.untouched other earlier
  past other yet := by
    dsimp only
    rw [channel_setChannel]
    rcases past other yet with earlier | ⟨rfl, ended⟩
    · split
      next same =>
        subst same
        have already := sound.past _ earlier
        obtain ⟨-, noneUnread, nonePiped⟩ := sound.finished _ already
        exact (took.keeps already noneUnread nonePiped).1
      next => exact sound.past other earlier
    · rw [if_pos rfl]
      exact ended
  gone status exited := by
    obtain ⟨lost, closed⟩ := sound.gone status exited
    refine ⟨lost, fun other => ?_⟩
    dsimp only
    rw [channel_setChannel]
    split
    next same =>
      subst same
      rw [took.isOpen]
      exact closed _
    next => exact closed other
  done status returned := absurd returned (notDone status)

private theorem Sound.endInput (sound : running.Sound capacities) (all : running.parent = .writing []) :
    running.endInput.Sound capacities where
  bytes stream := by
    have bytes := sound.bytes stream
    rw [all] at bytes
    exact bytes
  stdinWithin := sound.stdinWithin
  finished := sound.finished
  untouched stream before := sound.untouched stream (by rw [all]; trivial)
  past stream past := by cases stream <;> exact past.elim
  gone := sound.gone
  done _ returned := nomatch returned

private theorem Sound.writes {part : Nat} {input : Bytes} (sound : running.Sound capacities)
    (left : running.parent = .writing input) (room : running.stdin.length < capacities.stdin) :
    Sound capacities (let result := accepted (capacities.stdin - running.stdin.length) part input.length
      { running with parent := .writing (input.drop result), stdin := running.stdin ++ input.take result }) where
  bytes stream := by
    have bytes := sound.bytes stream
    rw [left] at bytes
    exact bytes
  stdinWithin := by
    have fits := @accepted_le (capacities.stdin - running.stdin.length) part input.length (by omega)
    dsimp only
    rw [List.length_append, List.length_take]
    omega
  finished := sound.finished
  untouched stream before := sound.untouched stream (by rw [left]; trivial)
  past stream past := by cases stream <;> exact past.elim
  gone := sound.gone
  done _ returned := nomatch returned

private theorem Sound.begins {stream : Output} {taken : Bytes} {channel : Channel} (sound : running.Sound capacities)
    (reads : running.parent = .reading stream) (took : (running.channel stream).Took taken channel) :
    ({ running.setChannel stream channel with parent := .readingSome stream taken } : Running σ).Sound capacities := by
  have bytes := sound.bytes stream
  rw [reads] at bytes
  have kept := sound.read took (.readingSome stream taken) [] (by
      simp only [Parent.taken, if_true, List.nil_append, took.collected, took.wrote]
      rw [took.bytes]
      exact bytes)
    (fun other different => by rw [reads]; exact if_neg fun same => different same.symm)
    (fun other before => by
      obtain ⟨rfl, rfl⟩ := Parent.before_readingSome.mp before
      rw [reads]
      exact ⟨by decide, trivial⟩)
    (fun other past => by
      rw [reads]
      exact .inl (Parent.past_reading.mpr (Parent.past_readingSome.mp past)))
    (fun _ same => nomatch same)
  rwa [List.append_nil] at kept

private theorem Sound.finishes {stream : Output} {channel : Channel} (sound : running.Sound capacities)
    (reads : running.parent = .reading stream) (took : (running.channel stream).Took [] channel)
    (ended : channel.readEOF = true) :
    ({ running.setChannel stream channel with parent := nextOutput stream } : Running σ).Sound capacities := by
  have bytes := sound.bytes stream
  rw [reads] at bytes
  have kept := sound.read took (nextOutput stream) [] (by
      rw [took.collected, took.wrote, ← bytes, ← took.bytes]
      cases stream <;> rfl)
    (fun other different => by rw [reads]; cases stream <;> rfl)
    (fun other before => absurd before Parent.not_before_next)
    (fun other past => by
      rw [reads]
      rcases Parent.past_next past with same | earlier
      · exact .inr ⟨same, ended⟩
      · exact .inl (Parent.past_reading.mpr earlier))
    (fun _ same => by cases stream <;> cases same)
  rwa [List.append_nil] at kept

private theorem Sound.adds {stream : Output} {taken more : Bytes} {channel : Channel} {next : Parent}
    (sound : running.Sound capacities) (reads : running.parent = .readingSome stream taken)
    (took : (running.channel stream).Took more channel)
    (goes : next = .reading stream ∨ next = nextOutput stream ∧ channel.readEOF = true) :
    ({ running.setChannel stream { channel with collected := channel.collected ++ (taken ++ more) } with
      parent := next } : Running σ).Sound capacities := by
  have bytes := sound.bytes stream
  rw [reads] at bytes
  refine sound.read took next (taken ++ more) ?_ ?_ ?_ ?_ ?_
  · rw [took.collected, took.wrote, ← bytes]
    have noneTaken : next.taken stream = [] := by
      rcases goes with rfl | ⟨rfl, -⟩
      · rfl
      · cases stream <;> rfl
    rw [noneTaken, List.nil_append, List.append_assoc, took.bytes]
    simp [Parent.taken]
  · intro other different
    rw [reads]
    rcases goes with rfl | ⟨rfl, -⟩
    · exact (if_neg fun same => different same.symm).symm
    · cases stream <;> exact (if_neg fun same => different same.symm).symm
  · intro other before
    rw [reads]
    rcases goes with rfl | ⟨rfl, -⟩
    · obtain ⟨rfl, rfl⟩ := Parent.before_reading.mp before
      exact ⟨by decide, trivial⟩
    · exact absurd before Parent.not_before_next
  · intro other past
    rw [reads]
    rcases goes with rfl | ⟨rfl, ended⟩
    · exact .inl (Parent.past_readingSome.mpr (Parent.past_reading.mp past))
    · rcases Parent.past_next past with same | earlier
      · exact .inr ⟨same, ended⟩
      · exact .inl (Parent.past_readingSome.mpr earlier)
  · rintro status rfl
    rcases goes with same | ⟨same, -⟩
    · cases same
    · cases stream <;> cases same

private theorem Sound.gets {status : UInt8} (sound : running.Sound capacities) (waits : running.parent = .waiting)
    (exited : running.child = .inr status) :
    ({ running with parent := .returned status } : Running σ).Sound capacities where
  bytes stream := by
    have bytes := sound.bytes stream
    rw [waits] at bytes
    exact bytes
  stdinWithin := sound.stdinWithin
  finished := sound.finished
  untouched stream before := by cases stream <;> exact before.elim
  past stream _ := sound.past stream (by rw [waits]; cases stream <;> trivial)
  gone := sound.gone
  done _ returned := by
    cases returned
    exact exited

theorem Sound.parent (sound : running.Sound capacities) (moves : ParentMove capacities running after) :
    after.Sound capacities := by
  cases moves with
  | ended all => exact sound.endInput all
  | writes left _ _ room => exact sound.writes left room
  | fails => exact sound
  | begins reads took => exact sound.begins reads took
  | finishes reads took ended => exact sound.finishes reads took ended
  | adds reads took goes => exact sound.adds reads took goes
  | gets waits exited => exact sound.gets waits exited

theorem Sound.pipe_le (sound : running.Sound capacities) (stream : Output) :
    (running.channel stream).pipe.length ≤ (running.channel stream).wrote.length := by
  have lengths := congrArg List.length (sound.bytes stream)
  simp only [List.length_append] at lengths
  omega

theorem Sound.pastClosed (sound : running.Sound capacities) {stream : Output} (past : running.parent.Past stream) :
    (running.channel stream).isOpen = false := (sound.finished stream (sound.past stream past)).1

theorem Parent.begun {parent : Parent} {stream : Output} (begun : ¬ parent.Before stream) :
    parent.feeding = none ∧ (stream = .stderr → parent.Past .stdout) := by
  cases parent with
  | writing input => exact absurd trivial begun
  | reading from_ =>
    refine ⟨rfl, fun isErr => ?_⟩
    rw [Parent.before_reading] at begun
    rw [Parent.past_reading]
    cases from_ with
    | stdout => exact absurd ⟨rfl, isErr⟩ begun
    | stderr => exact ⟨rfl, rfl⟩
  | readingSome from_ taken =>
    refine ⟨rfl, fun isErr => ?_⟩
    rw [Parent.before_readingSome] at begun
    rw [Parent.past_readingSome]
    cases from_ with
    | stdout => exact absurd ⟨rfl, isErr⟩ begun
    | stderr => exact ⟨rfl, rfl⟩
  | waiting => exact ⟨rfl, fun _ => trivial⟩
  | returned status => exact ⟨rfl, fun _ => trivial⟩

/-- An output is emptied when this program does not only begin to read it. -/
theorem Sound.emptied (sound : running.Sound capacities) {stream : Output} (begun : ¬ running.parent.Before stream) :
    running.shown.emptied stream = true := by
  obtain ⟨fed, past⟩ := Parent.begun begun
  cases stream with
  | stdout => simp [Fed.emptied, shown, fed]
  | stderr =>
    have closed := sound.pastClosed (past rfl)
    simp [Fed.emptied, shown, fed, closed]

/-- Where there is room in a pipe, a byte is taken. -/
theorem Sound.admits (sound : running.Sound capacities) {stream : Output}
    (room : (running.channel stream).pipe.length < capacities.output stream) :
    running.shown.Admits capacities stream := by
  by_cases begun : running.parent.Before stream
  · rw [(sound.untouched stream begun).2] at room
    exact .inl room
  · exact .inr (sound.emptied begun)

theorem shown_setChannel (running : Running σ) (stream : Output) (channel : Channel) :
    (running.setChannel stream channel).shown = { running.shown with
      wrote := Function.update running.shown.wrote stream channel.wrote
      isOpen := Function.update running.shown.isOpen stream channel.isOpen } := by
  have wrote : (fun other => ((running.setChannel stream channel).channel other).wrote) =
      Function.update running.shown.wrote stream channel.wrote := by
    funext other
    rw [channel_setChannel, Function.update_apply]
    split <;> rfl
  have isOpen : (fun other => ((running.setChannel stream channel).channel other).isOpen) =
      Function.update running.shown.isOpen stream channel.isOpen := by
    funext other
    rw [channel_setChannel, Function.update_apply]
    split <;> rfl
  rw [← wrote, ← isOpen]
  rfl

/-- Reading an output does not show. -/
theorem shown_read {stream : Output} {channel next : Channel} {taken : Bytes} {parent : Parent}
    (took : (running.channel stream).Took taken channel) (wrote : next.wrote = channel.wrote)
    (isOpen : next.isOpen = channel.isOpen) (same : parent.feeding = running.parent.feeding) :
    ({ running.setChannel stream next with parent := parent } : Running σ).shown = running.shown := by
  have kept := shown_setChannel running stream next
  rw [wrote, isOpen, took.wrote, took.isOpen] at kept
  have plain : (running.setChannel stream next).shown = running.shown := by
    rw [kept]
    have wroteSame := Function.update_eq_self stream running.shown.wrote
    have openSame := Function.update_eq_self stream running.shown.isOpen
    exact congrArg₂ (fun wrote isOpen => { running.shown with wrote := wrote, isOpen := isOpen }) wroteSame openSame
  calc ({ running.setChannel stream next with parent := parent } : Running σ).shown
      = { (running.setChannel stream next).shown with feeding := parent.feeding } := rfl
    _ = running.shown := by rw [plain, same]; rfl

theorem left_setChannel (running : Running σ) (stream : Output) (channel : Channel) (parent : Parent)
    (less : channel.size + parent.phase < (running.channel stream).size + running.parent.phase) :
    ({ running.setChannel stream channel with parent := parent } : Running σ).left < running.left := by
  unfold left
  dsimp only
  rw [channel_setChannel, channel_setChannel]
  cases stream <;> simp only [reduceCtorEq, if_true, if_false] <;> omega

private theorem nextOutput_feeding (stream : Output) : (nextOutput stream).feeding = none := by cases stream <;> rfl

private theorem nextOutput_phase (stream : Output) :
    (nextOutput stream).phase < (Parent.reading stream).phase ∧
    (Parent.reading stream).phase < (Parent.readingSome stream []).phase := by
  cases stream <;> decide

/-- A step of this program is one that feeds the child, or one that only reads, or a write that fails. -/
theorem ParentMove.simulates (moves : ParentMove capacities running after) :
    (∃ part, running.shown.feed capacities part = some after.shown) ∨
    (after.shown = running.shown ∧ after.left < running.left) ∨
    ∃ input, running.parent = .writing input ∧ input ≠ [] ∧ running.stdinKept = false := by
  cases moves with
  | ended all =>
    refine .inl ⟨0, ?_⟩
    simp [Fed.feed, shown, all, Parent.feeding, endInput]
  | @writes part input left some_ kept room =>
    refine .inl ⟨part, ?_⟩
    obtain ⟨first, rest, rfl⟩ := List.exists_cons_of_ne_nil some_
    have positive : capacities.stdin - running.stdin.length ≠ 0 := by omega
    simp [Fed.feed, shown, left, Parent.feeding, kept, positive]
  | @fails input left some_ lost => exact .inr (.inr ⟨input, left, some_, lost⟩)
  | @begins stream taken channel reads took some_ =>
    refine .inr (.inl ⟨shown_read took rfl rfl (by rw [reads]; rfl), left_setChannel _ _ _ _ ?_⟩)
    have size := took.size_le
    have pos := List.length_pos_iff.mpr some_
    rw [reads]
    cases stream <;> simp only [Parent.phase] <;> omega
  | @finishes stream channel reads took ended =>
    refine .inr (.inl ⟨shown_read took rfl rfl ?_, left_setChannel _ _ _ _ ?_⟩)
    · rw [reads, nextOutput_feeding]
      rfl
    · have size := took.size_le
      have phase := nextOutput_phase stream
      rw [reads]
      omega
  | @adds stream taken more channel next reads took goes =>
    have size : ({ channel with collected := channel.collected ++ (taken ++ more) } : Channel).size =
        channel.size := rfl
    have less := took.size_le
    have phase := nextOutput_phase stream
    refine .inr (.inl ⟨shown_read took rfl rfl ?_, left_setChannel _ _ _ _ ?_⟩)
    · rw [reads]
      rcases goes with rfl | ⟨rfl, -⟩
      · rfl
      · exact nextOutput_feeding stream
    · rw [reads, size]
      have later : next.phase ≤ (Parent.reading stream).phase := by
        rcases goes with rfl | ⟨rfl, -⟩
        · exact le_rfl
        · exact phase.1.le
      have same : (Parent.readingSome stream taken).phase = (Parent.readingSome stream []).phase := by
        cases stream <;> rfl
      omega
  | @gets status waits exited =>
    refine .inr (.inl ⟨?_, ?_⟩)
    · simp [shown, waits, Parent.feeding]
    · simp only [left, waits, Parent.phase]
      omega

/-- What the child waits for. -/
theorem perform_none {act : Act σ} (blocked : running.perform capacities act = none) :
    (∃ more next, act = .read more next ∧
      running.stdinKept = true ∧ running.stdin = [] ∧ running.stdinEnded = false) ∨
    ∃ stream byte next, act = .write stream byte next ∧ (running.channel stream).isOpen = true ∧
      capacities.output stream ≤ (running.channel stream).pipe.length := by
  cases act with
  | read more next =>
    refine .inl ⟨more, next, rfl, ?_⟩
    rw [perform, Option.map_eq_none_iff, readInput] at blocked
    split at blocked
    next => cases blocked
    next kept =>
      split at blocked
      next waits => exact ⟨by simpa using kept, waits.1, by simpa using waits.2⟩
      next => cases blocked
  | write stream byte next =>
    refine .inr ⟨stream, byte, next, rfl, ?_⟩
    rw [perform, Option.map_eq_none_iff, writeByte] at blocked
    split at blocked
    next => cases blocked
    next isOpen =>
      split at blocked
      next => cases blocked
      next full => exact ⟨by simpa using isOpen, by omega⟩
  | closeInput next => cases blocked
  | closeOutput stream next => cases blocked
  | exit status => cases blocked

/-- What the child does is what it does alone. -/
theorem Sound.perform_shown (sound : running.Sound capacities) {act : Act σ}
    (ran : running.perform capacities act = some after) : running.shown.perform capacities act = some after.shown := by
  cases act with
  | read more next =>
    obtain ⟨⟨bytes, rest⟩, found, same⟩ := Option.map_eq_some_iff.mp ran
    rw [readInput] at found
    subst same
    split at found
    next lost =>
      cases found
      exact if_pos lost
    next kept =>
      split at found
      next => cases found
      next some_ =>
        cases found
        exact (if_neg kept).trans (if_neg some_)
  | write stream byte next =>
    obtain ⟨rest, found, same⟩ := Option.map_eq_some_iff.mp ran
    rw [writeByte] at found
    subst same
    split at found
    next closed =>
      cases found
      exact if_pos closed
    next isOpen =>
      split at found
      next room =>
        cases found
        refine ((if_neg isOpen).trans (if_pos (sound.admits room))).trans ?_
        have kept := shown_setChannel running stream { running.channel stream with
          pipe := (running.channel stream).pipe ++ [byte], wrote := (running.channel stream).wrote ++ [byte] }
        have openSame := Function.update_eq_self stream running.shown.isOpen
        exact (congrArg (fun isOpen => some { running.shown with
            child := .inl next
            wrote := Function.update running.shown.wrote stream (running.shown.wrote stream ++ [byte])
            isOpen := isOpen }) openSame.symm).trans
          (congrArg (fun fed => some { fed with child := .inl next }) kept.symm)
      next => cases found
  | closeInput next =>
    cases ran
    rfl
  | closeOutput stream next =>
    cases ran
    have kept := shown_setChannel running stream { running.channel stream with isOpen := false }
    have wroteSame := Function.update_eq_self stream running.shown.wrote
    exact (congrArg (fun wrote => some { running.shown with
        child := .inl next
        wrote := wrote
        isOpen := Function.update running.shown.isOpen stream false }) wroteSame.symm).trans
      (congrArg (fun fed => some { fed with child := .inl next }) kept.symm)
  | exit status =>
    cases ran
    have wrote : (fun other => (((running.closeOutput .stdout).closeOutput .stderr).channel other).wrote) =
        running.shown.wrote := by
      funext other
      simp only [closeOutput, channel_setChannel]
      cases other <;> rfl
    have isOpen : (fun other => (((running.closeOutput .stdout).closeOutput .stderr).channel other).isOpen) =
        fun _ => false := by
      funext other
      simp only [closeOutput, channel_setChannel]
      cases other <;> rfl
    exact congrArg₂ (fun wrote isOpen => some { running.shown with
      child := .inr status
      stdinKept := false
      wrote := wrote
      isOpen := isOpen }) wrote.symm isOpen.symm

/-- What a child does to the outputs keeps the bytes of them. -/
theorem Sound.written (sound : running.Sound capacities) (same : after.parent = running.parent)
    (written : ∀ stream, ∃ bytes, (running.channel stream).Written (after.channel stream) bytes)
    (stdinWithin : after.stdin.length ≤ capacities.stdin)
    (alive : ∀ status, running.child ≠ .inr status)
    (gone : ∀ status, after.child = .inr status →
      after.stdinKept = false ∧ ∀ stream, (after.channel stream).isOpen = false) : after.Sound capacities where
  bytes stream := by
    obtain ⟨bytes, written⟩ := written stream
    rw [same, written.collected, written.unread, written.pipe, written.wrote, ← sound.bytes stream]
    simp only [List.append_assoc]
  stdinWithin := stdinWithin
  finished stream ended := by
    obtain ⟨bytes, written⟩ := written stream
    rw [written.readEOF] at ended
    obtain ⟨closed, noneUnread, nonePiped⟩ := sound.finished stream ended
    refine ⟨written.isOpen closed, written.unread.trans noneUnread, ?_⟩
    rw [written.pipe, nonePiped, written.some_ closed]
    rfl
  untouched stream before := by
    obtain ⟨bytes, written⟩ := written stream
    rw [same] at before
    obtain ⟨unended, untouched⟩ := sound.untouched stream before
    rw [written.readEOF, written.pipe, written.wrote, untouched]
    exact ⟨unended, rfl⟩
  past stream past := by
    obtain ⟨bytes, written⟩ := written stream
    rw [same] at past
    rw [written.readEOF]
    exact sound.past stream past
  gone := gone
  done status returned := by
    rw [same] at returned
    exact absurd (sound.done status returned) (alive status)

private theorem written_setChannel {stream : Output} {channel : Channel} {bytes : Bytes}
    (written : (running.channel stream).Written channel bytes) (other : Output) :
    ∃ bytes, (running.channel other).Written ((running.setChannel stream channel).channel other) bytes := by
  rw [channel_setChannel]
  split
  next same =>
    subst same
    exact ⟨bytes, written⟩
  next => exact ⟨[], .refl _⟩

theorem Sound.perform (sound : running.Sound capacities) {act : Act σ}
    (alive : ∀ status, running.child ≠ .inr status) (ran : running.perform capacities act = some after) : after.Sound capacities := by
  cases act with
  | read more next =>
    obtain ⟨⟨bytes, rest⟩, found, same⟩ := Option.map_eq_some_iff.mp ran
    subst same
    rw [readInput] at found
    split at found
    next =>
      cases found
      exact sound.written rfl (fun _ => ⟨[], .refl _⟩) sound.stdinWithin alive (fun _ exited => nomatch exited)
    next =>
      split at found
      next => cases found
      next =>
        cases found
        refine sound.written rfl (fun _ => ⟨[], .refl _⟩) ?_ alive (fun _ exited => nomatch exited)
        have within := sound.stdinWithin
        rw [List.length_drop]
        omega
  | write stream byte next =>
    obtain ⟨rest, found, same⟩ := Option.map_eq_some_iff.mp ran
    subst same
    rw [writeByte] at found
    split at found
    next =>
      cases found
      exact sound.written rfl (fun _ => ⟨[], .refl _⟩) sound.stdinWithin alive (fun _ exited => nomatch exited)
    next isOpen =>
      split at found
      next =>
        cases found
        refine sound.written rfl (@written_setChannel _ _ stream _ [byte] ?_) sound.stdinWithin alive
          (fun _ exited => nomatch exited)
        exact {
          pipe := rfl
          wrote := rfl
          unread := rfl
          readEOF := rfl
          collected := rfl
          isOpen := id
          some_ := fun closed => absurd closed (by simpa using isOpen) }
      next => cases found
  | closeInput next =>
    cases ran
    exact sound.written rfl (fun _ => ⟨[], .refl _⟩) sound.stdinWithin alive (fun _ exited => nomatch exited)
  | closeOutput stream next =>
    cases ran
    exact sound.written rfl (written_setChannel (.closed _)) sound.stdinWithin alive (fun _ exited => nomatch exited)
  | exit status =>
    cases ran
    have closed (stream : Output) : ((running.closeOutput .stdout).closeOutput .stderr).channel stream =
        { running.channel stream with isOpen := false } := by
      simp only [closeOutput, channel_setChannel]
      cases stream <;> rfl
    refine sound.written rfl (fun stream => ⟨[], ?_⟩) sound.stdinWithin alive
      (fun _ _ => ⟨rfl, fun stream => ?_⟩)
    · exact (closed stream).symm ▸ .closed _
    · exact congrArg Channel.isOpen (closed stream)

theorem Sound.step (sound : running.Sound capacities) {turn : Turn}
    (stepped : running.step capacities program turn = some after) : after.Sound capacities := by
  cases turn with
  | parent part => exact sound.parent (parentStep_move stepped)
  | child =>
    change running.childStep capacities program = some after at stepped
    unfold childStep at stepped
    split at stepped
    next state running_ =>
      refine sound.perform (fun status exited => ?_) stepped
      rw [running_] at exited
      cases exited
    next => cases stepped

/-- What this program waits for, and that it has returned otherwise. -/
theorem parentStep_none {part : Nat} (blocked : running.parentStep capacities part = none) :
    (∃ input, running.parent = .writing input ∧ input ≠ [] ∧ running.stdinKept = true ∧
      capacities.stdin ≤ running.stdin.length) ∨
    (∃ stream, running.parent = .reading stream ∧ (running.channel stream).underflow = none) ∨
    (running.parent = .waiting ∧ ∃ state, running.child = .inl state) ∨
    ∃ status, running.parent = .returned status := by
  unfold parentStep at blocked
  split at blocked
  next => cases blocked
  next input _ left =>
    refine .inl ⟨input, left, ?_, ?_⟩
    · rintro rfl
      contradiction
    · unfold xsputn at blocked
      split at blocked
      next kept =>
        by_cases full : capacities.stdin - running.stdin.length = 0
        · exact ⟨kept, by omega⟩
        · simp [full] at blocked
      next => cases blocked
  next stream reads =>
    exact .inr (.inl ⟨stream, reads, Channel.sgetn_none.mp (Option.map_eq_none_iff.mp blocked)⟩)
  next stream taken reads =>
    unfold readSome at blocked
    dsimp only at blocked
    split at blocked
    next => cases blocked
    next =>
      split at blocked
      next => cases blocked
      next some_ =>
        have waits := Channel.sgetn_none.mp (Option.map_eq_none_iff.mp blocked)
        obtain ⟨unended, noneUnread, nonePiped, isOpen⟩ := Channel.underflow_none.mp waits
        refine absurd ?_ some_
        simp [Channel.inAvail, Channel.showmanyc, Channel.isReady, unended, noneUnread, nonePiped, isOpen]
  next waits =>
    split at blocked
    next state alive => exact .inr (.inr (.inl ⟨waits, state, alive⟩))
    next => cases blocked
  next status done => exact .inr (.inr (.inr ⟨status, done⟩))

/-- A step is one of the program alone, or one that only reads, or a write that fails. -/
theorem Sound.simulates (sound : running.Sound capacities) {turn : Turn}
    (stepped : running.step capacities program turn = some after) :
    (∃ turn, Fed.step capacities program turn running.shown = some after.shown) ∨
    (after.shown = running.shown ∧ after.left < running.left) ∨
    ∃ input ∈ running.shown.feeding, input ≠ [] ∧ running.shown.stdinKept = false := by
  cases turn with
  | parent part =>
    rcases (parentStep_move stepped).simulates with ⟨part, fed⟩ | reads | ⟨input, left, some_, lost⟩
    · exact .inl ⟨.parent part, fed⟩
    · exact .inr (.inl reads)
    · exact .inr (.inr ⟨input, by simp [shown, left, Parent.feeding], some_, lost⟩)
  | child =>
    refine .inl ⟨.child, ?_⟩
    change running.childStep capacities program = some after at stepped
    unfold childStep at stepped
    split at stepped
    next state alive =>
      have child : running.shown.child = .inl state := alive
      simp only [Fed.step, child]
      exact sound.perform_shown stepped
    next => cases stepped

end Running
end Slate
