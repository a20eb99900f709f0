import Slate.Proofs.CommandSteps

/-! When a command that runs comes to its end. The program alone with its input decides that. -/

namespace Slate
open Library

namespace Running

variable {σ : Type} {capacities : Capacities} {program : σ → Act σ} {running after : Running σ}

/-- Where nothing more can happen, a command has returned. -/
theorem Sound.stopped (sound : running.Sound capacities)
    (minds : ∀ state, running.child = .inl state → running.shown.Minds capacities (program state))
    (stopped : Stopped (Running.step capacities program) running) : ∃ status, running.parent = .returned status := by
  have childBlocked {state : σ} (alive : running.child = .inl state) :
      running.perform capacities (program state) = none := by
    have blocked := stopped .child
    simpa only [Running.step, childStep, alive] using blocked
  have noInput {state : σ} {more : Nat} {next : Bytes → σ} (alive : running.child = .inl state)
      (act : program state = .read more next) (kept : running.stdinKept = true) (none_ : running.stdin = [])
      (unended : running.stdinEnded = false) (fed : running.parent.feeding = none) : False := by
    have minded := minds state alive
    rw [act] at minded
    have ended : running.stdinEnded = true := minded kept none_ fed
    rw [unended] at ended
    cases ended
  have tooMuch {state : σ} {stream : Output} {byte : UInt8} {next : σ} (alive : running.child = .inl state)
      (act : program state = .write stream byte next) (isOpen : (running.channel stream).isOpen = true)
      (full : capacities.output stream ≤ (running.channel stream).pipe.length) :
      running.shown.Fits capacities ∧ (stream = .stderr → (running.channel .stdout).isOpen = false) := by
    have minded := minds state alive
    rw [act] at minded
    exact minded isOpen (full.trans (sound.pipe_le stream))
  rcases parentStep_none (stopped (.parent 0)) with
    ⟨input, left, some_, kept, inputFull⟩ | ⟨stream, reads, waits⟩ | ⟨waits, state, alive⟩ | returned
  · cases child : running.child with
    | inr status =>
      have lost := (sound.gone status child).1
      rw [kept] at lost
      cases lost
    | inl state =>
      exfalso
      rcases perform_none (childBlocked child) with
        ⟨more, next, act, -, none_, -⟩ | ⟨stream, byte, next, act, isOpen, full⟩
      · have positive := capacities.stdin_pos
        rw [none_, List.length_nil] at inputFull
        omega
      · have fits := (tooMuch child act isOpen full).1 input (by simp [shown, left, Parent.feeding])
        have some_ := List.length_pos_iff.mpr some_
        change input.length + running.stdin.length ≤ capacities.stdin at fits
        omega
  · obtain ⟨unended, -, nonePiped, isOpen⟩ := Channel.underflow_none.mp waits
    cases child : running.child with
    | inr status =>
      have closed := (sound.gone status child).2 stream
      rw [isOpen] at closed
      cases closed
    | inl state =>
      exfalso
      rcases perform_none (childBlocked child) with
        ⟨more, next, act, kept, none_, open_⟩ | ⟨other, byte, next, act, otherOpen, full⟩
      · exact noInput child act kept none_ open_ (by rw [reads]; rfl)
      · have positive := capacities.output_pos other
        by_cases same : other = stream
        · rw [same, nonePiped, List.length_nil] at full
          rw [same] at positive
          omega
        · cases stream with
          | stdout =>
            cases other with
            | stdout => exact same rfl
            | stderr =>
              have closed := (tooMuch child act otherOpen full).2 rfl
              rw [isOpen] at closed
              cases closed
          | stderr =>
            cases other with
            | stdout =>
              have past : running.parent.Past .stdout := by rw [reads]; trivial
              rw [sound.pastClosed past] at otherOpen
              cases otherOpen
            | stderr => exact same rfl
  · exfalso
    rcases perform_none (childBlocked alive) with
      ⟨more, next, act, kept, none_, open_⟩ | ⟨stream, byte, next, act, isOpen, full⟩
    · exact noInput alive act kept none_ open_ (by rw [waits]; rfl)
    · have past : running.parent.Past stream := by rw [waits]; cases stream <;> trivial
      rw [sound.pastClosed past] at isOpen
      cases isOpen
  · exact returned

/-- Neither of two that wait for each other can go on. -/
theorem Deadlocked.stopped (deadlocked : running.Deadlocked capacities program) :
    Stopped (step capacities program) running ∧ ∀ status, running.parent ≠ .returned status := by
  obtain ⟨held, wanted, -, parent, child⟩ := deadlocked
  constructor
  · intro turn
    cases turn with
    | parent part =>
      change running.parentStep capacities part = none
      unfold parentWaits at parent
      unfold parentStep
      split at parent
      next byte rest left =>
        rw [left]
        split at parent
        next full =>
          have zero : capacities.stdin - running.stdin.length = 0 := by omega
          simp [xsputn, full.1, zero]
        next => cases parent
      next stream reads =>
        rw [reads]
        split at parent
        next waits =>
          exact Option.map_eq_none_iff.mpr (Channel.sgetn_none.mpr (Option.isNone_iff_eq_none.mp waits))
        next => cases parent
      next => cases parent
    | child =>
      change running.childStep capacities program = none
      cases alive : running.child with
      | inr status => simp [childWaits, alive] at child
      | inl state =>
        simp only [childWaits, alive] at child
        simp only [childStep, alive]
        split at child
        next more next act =>
          rw [act]
          split at child
          next waits => simp [perform, readInput, waits.1, waits.2.1, waits.2.2]
          next => cases child
        next stream byte next act =>
          rw [act]
          split at child
          next full =>
            have noRoom : ¬ (running.channel stream).pipe.length < capacities.output stream := by omega
            simp [perform, writeByte, full.1, noRoom]
          next => cases child
        next => cases child
  · intro status returned
    rw [parentWaits, returned] at parent
    cases parent

theorem Reaches.sound (sound : running.Sound capacities) (reached : running.Reaches capacities program after) :
    after.Sound capacities :=
  reached.keeps sound fun _ _ _ _ stepped kept => kept.step stepped

/-- A considerate program's command comes to its end. -/
theorem runsThrough_of_considerate (sound : running.Sound capacities) (served : running.shown.Served)
    (considerate : Fed.Considerate capacities program running.shown) : running.RunsThrough capacities program := by
  -- What the command does is what the program does alone, which keeps its input served.
  have alongside {after : Running σ} (reached : running.Reaches capacities program after) :
      running.shown.Reaches capacities program after.shown := by
    induction reached with
    | start => exact .start
    | @step before after turn came _ stepped shown =>
      have kept := Reaches.sound sound came
      rcases kept.simulates stepped with ⟨turn, fed⟩ | ⟨same, -⟩ | ⟨input, left, some_, lost⟩
      · exact shown.step turn trivial fed
      · rw [same]
        exact shown
      · exact absurd (considerate.served served shown input left lost) some_
  have returns {after : Running σ} (reached : running.Reaches capacities program after)
      (stopped : Stopped (step capacities program) after) : ∃ status, after.parent = .returned status := by
    refine (Reaches.sound sound reached).stopped (fun state alive => ?_) stopped
    exact considerate.minds after.shown state (alongside reached) alive
  exact {
    neverDeadlocked := by
      intro after reached deadlocked
      obtain ⟨stopped, waits⟩ := deadlocked.stopped
      obtain ⟨status, returned⟩ := returns reached stopped
      exact waits status returned
    ends := by
      refine Terminates.of_simulation shown left
        (fun after => running.Reaches capacities program after) .start ?_ ?_ considerate.ends
      · exact fun turn before after stepped reached => reached.step turn trivial stepped
      · intro turn before after stepped reached
        rcases (Reaches.sound sound reached).simulates stepped with fed | reads | ⟨input, left, some_, lost⟩
        · exact .inl fed
        · exact .inr reads
        · exact absurd (considerate.served served (alongside reached) input left lost) some_
    returns := fun after reached stopped => returns reached stopped
    collects := by
      intro after status reached returned
      have kept := Reaches.sound sound reached
      refine ⟨kept.done status returned, fun stream => ?_⟩
      have bytes := kept.bytes stream
      have past : after.parent.Past stream := by
        rw [returned]
        cases stream <;> trivial
      obtain ⟨-, noneUnread, nonePiped⟩ := kept.finished stream (kept.past stream past)
      rw [noneUnread, nonePiped, returned] at bytes
      simpa [Parent.taken] using bytes }

private theorem feed_answered {part : Nat} {fed : Fed σ} (ran : running.shown.feed capacities part = some fed) :
    ∃ after, running.parentStep capacities part = some after ∧ after.shown = fed := by
  unfold Fed.feed at ran
  split at ran
  next => cases ran
  next left =>
    cases ran
    cases place : running.parent with
    | writing input =>
      simp only [shown, place, Parent.feeding, Option.some.injEq] at left
      subst left
      exact ⟨running.endInput, by simp [parentStep, place], rfl⟩
    | _ => simp [shown, place, Parent.feeding] at left
  next input _ left =>
    dsimp only at ran
    split at ran
    next able =>
      cases ran
      cases place : running.parent with
      | writing rest =>
        simp only [shown, place, Parent.feeding, Option.some.injEq] at left
        subst left
        cases rest with
        | nil => contradiction
        | cons first rest =>
          have kept : running.stdinKept = true := able.1
          have room : ¬ capacities.stdin - running.stdin.length = 0 := able.2
          have ran : running.parentStep capacities part = running.xsputn capacities part (first :: rest) := by
            rw [parentStep, place]
          exact ⟨_, ran.trans ((if_pos kept).trans (if_neg room)), rfl⟩
      | _ => simp [shown, place, Parent.feeding] at left
    next => cases ran

/-- A byte that is taken from a program alone comes to have room in its pipe. -/
theorem Sound.makesRoom (sound : running.Sound capacities) {stream : Output}
    (admits : running.shown.Admits capacities stream) (isOpen : (running.channel stream).isOpen = true) :
    ∃ after, running.Reaches capacities program after ∧ after.shown = running.shown ∧
      (after.channel stream).pipe.length < capacities.output stream := by
  induction bound : running.left using Nat.strongRecOn generalizing running with
  | ind bound closer =>
    by_cases room : (running.channel stream).pipe.length < capacities.output stream
    · exact ⟨running, .start, rfl, room⟩
    · have emptied : running.shown.emptied stream = true := by
        rcases admits with fits | emptied
        · exact absurd (lt_of_le_of_lt (sound.pipe_le stream) fits) room
        · exact emptied
      have fed : running.parent.feeding = none := by
        cases stream <;> simp_all [Fed.emptied, shown]
      have positive := capacities.output_pos stream
      have notPast (past : running.parent.Past stream) : False := by
        have closed := sound.pastClosed past
        rw [isOpen] at closed
        cases closed
      cases stepped : running.parentStep capacities 0 with
      | none =>
        exfalso
        rcases parentStep_none stepped with
          ⟨input, left, -⟩ | ⟨other, reads, waits⟩ | ⟨waits, -⟩ | ⟨status, returned⟩
        · rw [left] at fed
          cases fed
        · obtain ⟨-, -, nonePiped, otherOpen⟩ := Channel.underflow_none.mp waits
          cases stream with
          | stdout =>
            cases other with
            | stdout =>
              rw [nonePiped, List.length_nil] at room
              exact room positive
            | stderr => exact notPast (by rw [reads]; trivial)
          | stderr =>
            cases other with
            | stdout =>
              have closed : (running.channel .stdout).isOpen = false := by
                simpa [Fed.emptied, shown, fed] using emptied
              rw [otherOpen] at closed
              cases closed
            | stderr =>
              rw [nonePiped, List.length_nil] at room
              exact room positive
        · exact notPast (by rw [waits]; cases stream <;> trivial)
        · exact notPast (by rw [returned]; cases stream <;> trivial)
      | some next =>
        have move := parentStep_move stepped
        rcases move.simulates with ⟨part, feeds⟩ | ⟨same, less⟩ | ⟨input, left, -⟩
        · have none_ : running.shown.feeding = none := fed
          simp [Fed.feed, none_] at feeds
        · have nextOpen : (next.channel stream).isOpen = true := by
            have same := congrFun (congrArg Fed.isOpen same) stream
            exact same.trans isOpen
          obtain ⟨after, reached, still, room⟩ :=
            closer next.left (bound ▸ less) (sound.parent move) (same ▸ admits) nextOpen rfl
          exact ⟨after, (Reached.start.step (.parent 0) trivial stepped).trans reached, still.trans same, room⟩
        · rw [left] at fed
          cases fed

private theorem perform_answered {act : Act σ} {fed : Fed σ} (sound : running.Sound capacities)
    (ran : running.shown.perform capacities act = some fed)
    (room : ∀ stream byte next, act = .write stream byte next → (running.channel stream).isOpen = true →
      (running.channel stream).pipe.length < capacities.output stream) :
    ∃ after, running.perform capacities act = some after ∧ after.shown = fed := by
  cases performed : running.perform capacities act with
  | some after =>
    have shown := sound.perform_shown performed
    rw [ran] at shown
    cases shown
    exact ⟨after, rfl, rfl⟩
  | none =>
    exfalso
    rcases perform_none performed with
      ⟨more, next, rfl, kept, none_, unended⟩ | ⟨stream, byte, next, rfl, isOpen, full⟩
    · have waits : running.shown.perform capacities (.read more next) = none := by
        simp [Fed.perform, shown, kept, none_, unended]
      rw [waits] at ran
      cases ran
    · exact absurd (room stream byte next rfl isOpen) (by omega)

/-- A program is followed by its command. -/
structure Follows (capacities : Capacities) (fed : Fed σ) (running : Running σ) : Prop where
  shown : running.shown = fed
  sound : running.Sound capacities

private theorem step_answered {turn : Turn} {fed next : Fed σ} (stepped : Fed.step capacities program turn fed = some next)
    (follows : Follows capacities fed running) :
    ∃ middle after answer, Reached (step capacities program) (fun _ _ => True) running middle ∧
      step capacities program answer middle = some after ∧ Follows capacities next after := by
  obtain ⟨rfl, sound⟩ := follows
  cases turn with
  | parent part =>
    obtain ⟨after, answered, shown⟩ := feed_answered stepped
    exact ⟨running, after, .parent part, .start, answered, shown, sound.parent (parentStep_move answered)⟩
  | child =>
    simp only [Fed.step] at stepped
    split at stepped
    next state alive =>
      obtain ⟨middle, reached, same, room⟩ : ∃ middle, running.Reaches capacities program middle ∧
          middle.shown = running.shown ∧ ∀ stream byte next, program state = .write stream byte next →
            (middle.channel stream).isOpen = true →
            (middle.channel stream).pipe.length < capacities.output stream := by
        by_cases writes : ∃ stream byte next, program state = .write stream byte next ∧
            (running.channel stream).isOpen = true
        · obtain ⟨stream, byte, after, act, isOpen⟩ := writes
          have admits : running.shown.Admits capacities stream := by
            by_contra refused
            have stillOpen : running.shown.isOpen stream = true := isOpen
            rw [act, Fed.perform, if_neg (by simp [stillOpen]), if_neg refused] at stepped
            cases stepped
          obtain ⟨middle, reached, same, room⟩ := sound.makesRoom admits isOpen
          refine ⟨middle, reached, same, fun other _ _ otherAct _ => ?_⟩
          rw [act] at otherAct
          cases otherAct
          exact room
        · refine ⟨running, .start, rfl, fun stream byte next act isOpen => ?_⟩
          exact absurd ⟨stream, byte, next, act, isOpen⟩ writes
      have kept := Reaches.sound sound reached
      rw [← same] at stepped
      obtain ⟨after, performed, shown⟩ := perform_answered kept stepped room
      have stillAlive : middle.child = .inl state := (congrArg Fed.child same).trans alive
      have answered : step capacities program .child middle = some after := by
        simpa only [step, childStep, stillAlive] using performed
      exact ⟨middle, after, .child, reached, answered, shown, kept.step answered⟩
    next => cases stepped

/-- No command runs through that comes to where the child waits as long as this program goes on. -/
theorem RunsThrough.goesOn {current : Running σ} (runs : running.RunsThrough capacities program)
    (sound : running.Sound capacities) (came : running.Reaches capacities program current) (waits : Running σ → Prop)
    (now : waits current)
    (keeps : ∀ part before after, before.Sound capacities → before.parentStep capacities part = some after →
      waits before → waits after)
    (blocks : ∀ after, after.Sound capacities → waits after →
      ∃ state, after.child = .inl state ∧ after.perform capacities (program state) = none) : False := by
  obtain ⟨last, path, done⟩ := (runs.ends.reached came).exhausts (· ≠ Turn.child)
  have kept : last.Sound capacities ∧ waits last := by
    clear done
    induction path with
    | start => exact ⟨Reaches.sound sound came, now⟩
    | @step before after turn _ notChild stepped ih =>
      refine ⟨ih.1.step stepped, ?_⟩
      cases turn with
      | parent part => exact keeps part before after ih.1 stepped ih.2
      | child => exact absurd rfl notChild
  obtain ⟨state, alive, blocked⟩ := blocks last kept.1 kept.2
  have stopped : Stopped (step capacities program) last := by
    intro turn
    cases turn with
    | parent part => exact done (.parent part) (by simp)
    | child => simpa only [step, childStep, alive] using blocked
  obtain ⟨status, returned⟩ := runs.returns last (came.trans (path.mono fun _ _ _ => trivial)) stopped
  have exited := kept.1.done status returned
  rw [alive] at exited
  cases exited

/-- A step of this program keeps what it has not to do with. -/
theorem feed_or_same {part : Nat} (stepped : running.parentStep capacities part = some after) :
    (∃ part, running.shown.feed capacities part = some after.shown) ∨ after.shown = running.shown := by
  rcases (parentStep_move stepped).simulates with feeds | ⟨same, -⟩ | ⟨input, left, some_, lost⟩
  · exact .inl feeds
  · exact .inr same
  · refine .inr ?_
    obtain ⟨first, rest, rfl⟩ := List.exists_cons_of_ne_nil some_
    rw [parentStep, left] at stepped
    simp only [xsputn, lost, Bool.false_eq_true, if_false, Option.some.injEq] at stepped
    rw [stepped]

/-- A program that is fed by a command that runs through minds. -/
theorem considerate_of_runsThrough (sound : running.Sound capacities) (runs : running.RunsThrough capacities program) :
    Fed.Considerate capacities program running.shown where
  ends := runs.ends.of_answered (Follows capacities) (fun _ _ _ _ stepped follows => step_answered stepped follows)
    ⟨rfl, sound⟩
  minds fed state reached alive := by
    obtain ⟨current, came, rfl, kept⟩ := reached.answered (Follows capacities)
      (fun _ _ _ _ stepped follows => step_answered stepped follows) ⟨rfl, sound⟩
    have alive : current.child = .inl state := alive
    -- An input that is not kept is written in vain forever.
    have servedInput {next : Running σ} (act : current.perform capacities (program state) = some next)
        (same : next.parent = current.parent) (lost : next.stdinKept = false) (input : Bytes)
        (member : input ∈ current.shown.feeding) : input = [] := by
      cases input with
      | nil => rfl
      | cons first rest =>
        exfalso
        have left : current.parent = .writing (first :: rest) := by
          cases place : current.parent <;> simp [shown, place, Parent.feeding] at member
          rw [member]
        have stepped : step capacities program .child current = some next := by
          simpa only [step, childStep, alive] using act
        have ends := runs.ends.reached (came.step .child trivial stepped)
        refine ends.changes (.parent 0) ?_
        simp [step, parentStep, same, left, xsputn, lost]
    cases act : program state with
    | read more next =>
      intro inputKept none_ fed
      by_contra unended
      refine runs.goesOn sound came (fun after => after.child = .inl state ∧ after.shown = current.shown)
        ⟨alive, rfl⟩ ?_ ?_
      · rintro part before after _ stepped ⟨stillAlive, same⟩
        rcases feed_or_same stepped with ⟨part, feeds⟩ | still
        · have none_ : before.shown.feeding = none := by rw [same]; exact fed
          simp [Fed.feed, none_] at feeds
        · have child := congrArg Fed.child still
          exact ⟨child.trans stillAlive, still.trans same⟩
      · rintro after _ ⟨stillAlive, same⟩
        refine ⟨state, stillAlive, ?_⟩
        have keptSame : after.stdinKept = true := (congrArg Fed.stdinKept same).trans inputKept
        have stdinSame : after.stdin = [] := (congrArg Fed.stdin same).trans none_
        have endedSame : after.stdinEnded = false := (congrArg Fed.stdinEnded same).trans (by simpa using unended)
        simp [act, perform, readInput, keptSame, stdinSame, endedSame]
    | write stream byte next =>
      intro isOpen many
      by_contra refused
      refine runs.goesOn sound came (fun after => after.child = .inl state ∧
        after.shown.isOpen = current.shown.isOpen ∧ after.shown.wrote = current.shown.wrote ∧
        ¬ (after.shown.Fits capacities ∧ (stream = .stderr → after.shown.isOpen .stdout = false)))
        ⟨alive, rfl, rfl, refused⟩ ?_ ?_
      · rintro part before after kept stepped ⟨stillAlive, sameOpen, sameWrote, stillRefused⟩
        rcases feed_or_same stepped with ⟨part, feeds⟩ | still
        · obtain ⟨child, openFed, wroteFed, fits⟩ := Fed.feed_keeps kept.stdinWithin feeds
          refine ⟨child.trans stillAlive, openFed.trans sameOpen, wroteFed.trans sameWrote, ?_⟩
          rintro ⟨nowFits, closed⟩
          rw [openFed] at closed
          exact stillRefused ⟨fits nowFits, closed⟩
        · have child := congrArg Fed.child still
          rw [still]
          exact ⟨child.trans stillAlive, sameOpen, sameWrote, stillRefused⟩
      · rintro after kept ⟨stillAlive, sameOpen, sameWrote, stillRefused⟩
        refine ⟨state, stillAlive, ?_⟩
        have stillOpen : (after.channel stream).isOpen = true := (congrFun sameOpen stream).trans isOpen
        have stillMany : capacities.output stream ≤ (after.channel stream).wrote.length := by
          rw [show (after.channel stream).wrote = current.shown.wrote stream from congrFun sameWrote stream]
          exact many
        have full : ¬ (after.channel stream).pipe.length < capacities.output stream := by
          by_cases before : after.parent.Before stream
          · rw [(kept.untouched stream before).2]
            omega
          · have emptied := kept.emptied before
            refine absurd ⟨fun input member => ?_, fun isErr => ?_⟩ stillRefused
            · have fed : after.shown.feeding = none := by cases stream <;> simp_all [Fed.emptied]
              rw [fed] at member
              cases member
            · subst isErr
              simpa [Fed.emptied] using (Bool.and_eq_true_iff.mp emptied).2
        simp [act, perform, writeByte, stillOpen, full]
    | closeInput next =>
      exact @servedInput { current with stdinKept := false, child := .inl next } (by rw [act]; rfl) rfl rfl
    | closeOutput stream next => trivial
    | exit status =>
      exact @servedInput { (current.closeOutput .stdout).closeOutput .stderr with
        stdinKept := false
        child := .inr status } (by rw [act]; rfl) rfl rfl

end Running

variable {σ : Type}

/-- Exactly the commands of considerate programs run through. -/
theorem runCommand_runsThrough_iff (capacities : Capacities) (program : σ → Act σ) (first : σ)
    (input : Option Bytes) : (Running.runCommand first input).RunsThrough capacities program ↔
      Fed.Considerate capacities program (Running.runCommand first input).shown := by
  have sound := Running.runCommand_sound capacities first input
  constructor
  · exact Running.considerate_of_runsThrough sound
  · refine Running.runsThrough_of_considerate sound fun _ member lost => ?_
    cases input <;> cases lost

/-- What an act may lead to, whatever is read. -/
def Act.Leads : Act σ → σ → Prop
  | .read _ next, after => ∃ bytes, after = next bytes
  | .write _ _ next, after => after = next
  | .closeInput next, after => after = next
  | .closeOutput _ next, after => after = next
  | .exit _, _ => False

/-- A program that closes all that it has after finitely many acts. -/
def AlwaysExits (program : σ → Act σ) (first : σ) : Prop :=
  Acc (fun after before => (program before).Leads after) first

/-- A program that reads nothing. -/
def writer : List (Output × UInt8) → Act (List (Output × UInt8))
  | [] => .exit 0
  | (stream, byte) :: more => .write stream byte more

private theorem writer_exits (bytes : List (Output × UInt8)) : AlwaysExits writer bytes := by
  induction bytes with
  | nil => exact .intro _ fun after leads => leads.elim
  | cons byte more ih =>
    refine .intro _ fun after leads => ?_
    have same : after = more := leads
    subst same
    exact ih

def narrow : Capacities := ⟨1, fun _ => 1, Nat.one_pos, fun _ => Nat.one_pos⟩

/-- More on the second output than its pipe holds, more on the first than its pipe holds while there is
an input, and an input that is not read. -/
theorem runCommand_hangs :
    (∀ bytes, AlwaysExits writer bytes) ∧
    ¬ (Running.runCommand [(.stderr, 0), (.stderr, 0)] none).RunsThrough narrow writer ∧
    ¬ (Running.runCommand [(.stdout, 0), (.stdout, 0)] (some [1, 2])).RunsThrough narrow writer ∧
    ¬ (Running.runCommand [] (some [1])).RunsThrough narrow writer := by
  refine ⟨writer_exits, fun runs => ?_, fun runs => ?_, fun runs => ?_⟩
  · apply runs.neverDeadlocked _ (Reached.start.step .child trivial rfl)
    exact ⟨.output .stdout, .output .stderr, by decide, rfl, rfl⟩
  · apply runs.neverDeadlocked _ ((Reached.start.step (.parent 1) trivial rfl).step .child trivial rfl)
    exact ⟨.stdin, .output .stdout, by decide, rfl, rfl⟩
  · have exited : (Running.runCommand [] (some [1])).Reaches narrow writer _ := Reached.start.step .child trivial rfl
    apply (runs.ends.reached exited).changes (.parent 0)
    rfl

end Slate
