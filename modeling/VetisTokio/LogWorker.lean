import VetisTokio.Library.Refinement
import VetisTokio.Library.WorkQueue

/-! worker::log, the thread that writes what the loggers send. It is the one consumer of
a bounded channel, never told to stop and never joined: it returns when the last sender
is gone and the channel is empty. -/
namespace VetisTokio.LogWorker
open Runs WorkQueue Refinement

inductive Level where
  | info
  | debug
  | error
  | trace
  deriving DecidableEq, Repr

structure LogMessage where
  level : String
  target : String
  message : String
  deriving DecidableEq, Repr

structure Line where
  level : Level
  target : String
  text : String
  deriving DecidableEq, Repr

/- The arms of the match; whatever else a level is ends in `unreachable!`. No message of the
vetis crate has another level, so that arm is there for the text of the match alone. -/
def levelOf : String → Option Level
  | "INFO" => some .info
  | "DEBUG" => some .debug
  | "ERROR" => some .error
  | "TRACE" => some .trace
  | _ => none

def lineOf (m : LogMessage) : Option Line := (levelOf m.level).map (fun level => ⟨level, m.target, m.message⟩)

def loggerStarted : Line := ⟨.info, "vetis", "Logger started!"⟩
def loggerStopped : Line := ⟨.info, "vetis", "Logger stopped successfully!"⟩

inductive Place where
  | spawned
  | receiving
  | returned
  | panicked
  deriving DecidableEq, Repr

structure LogThread where
  place : Place
  channel : List LogMessage
  capacity : Nat
  senders : Nat
  written : List Line
  sent : List LogMessage
  deriving DecidableEq, Repr

inductive LogLabel where
  | run
  | send (m : LogMessage)
  | cloneSender
  | dropSender
  | recv
  | closed
  deriving DecidableEq, Repr

def startLogger (queueSize : Nat) : LogThread := ⟨.spawned, [], max queueSize 1, 1, [], []⟩

def LogThread.receives (s : LogThread) : Bool := s.place == .spawned || s.place == .receiving

def LogThread.step (s : LogThread) : LogLabel → Option LogThread
  | .run => if s.place = .spawned then some { s with place := .receiving, written := s.written ++ [loggerStarted] } else none
  | .send m =>
    if s.receives ∧ 0 < s.senders ∧ s.channel.length < s.capacity then
      some { s with channel := s.channel ++ [m], sent := s.sent ++ [m] }
    else none
  | .cloneSender => if 0 < s.senders then some { s with senders := s.senders + 1 } else none
  | .dropSender => if 0 < s.senders then some { s with senders := s.senders - 1 } else none
  | .recv =>
    match s.place, s.channel with
    | .receiving, m :: rest =>
      match lineOf m with
      | some line => some { s with channel := rest, written := s.written ++ [line] }
      | none => some { s with channel := rest, place := .panicked }
    | _, _ => none
  | .closed =>
    if s.place = .receiving ∧ s.channel = [] ∧ s.senders = 0 then
      some { s with place := .returned, written := s.written ++ [loggerStopped] }
    else none

section
variable {s out : LogThread} {l : LogLabel}

inductive LogStep (s : LogThread) : LogLabel → LogThread → Prop where
  | run (place : s.place = .spawned) :
      LogStep s .run { s with place := .receiving, written := s.written ++ [loggerStarted] }
  | sent {m} (receives : s.receives = true) (room : s.channel.length < s.capacity) (some : 0 < s.senders) :
      LogStep s (.send m) { s with channel := s.channel ++ [m], sent := s.sent ++ [m] }
  | cloned (some : 0 < s.senders) : LogStep s .cloneSender { s with senders := s.senders + 1 }
  | droppedSender (some : 0 < s.senders) : LogStep s .dropSender { s with senders := s.senders - 1 }
  | wrote {m rest line} (place : s.place = .receiving) (first : s.channel = m :: rest) (known : lineOf m = some line) :
      LogStep s .recv { s with channel := rest, written := s.written ++ [line] }
  | panicked {m rest} (place : s.place = .receiving) (first : s.channel = m :: rest) (unknown : lineOf m = none) :
      LogStep s .recv { s with channel := rest, place := .panicked }
  | closed (place : s.place = .receiving) (drained : s.channel = []) (gone : s.senders = 0) :
      LogStep s .closed { s with place := .returned, written := s.written ++ [loggerStopped] }

theorem logSource (taken : s.step l = some out) : LogStep s l out := by
  cases l with
  | run =>
    simp only [LogThread.step] at taken
    split at taken <;> try contradiction
    cases Option.some.inj taken
    exact .run (by assumption)
  | send m =>
    simp only [LogThread.step] at taken
    split at taken <;> try contradiction
    rename_i all
    cases Option.some.inj taken
    exact .sent all.1 all.2.2 all.2.1
  | cloneSender =>
    simp only [LogThread.step] at taken
    split at taken <;> try contradiction
    cases Option.some.inj taken
    exact .cloned (by assumption)
  | dropSender =>
    simp only [LogThread.step] at taken
    split at taken <;> try contradiction
    cases Option.some.inj taken
    exact .droppedSender (by assumption)
  | recv =>
    simp only [LogThread.step] at taken
    split at taken <;> try contradiction
    rename_i place first
    split at taken
    · cases Option.some.inj taken
      exact .wrote place first (by assumption)
    · cases Option.some.inj taken
      exact .panicked place first (by assumption)
  | closed =>
    simp only [LogThread.step] at taken
    split at taken <;> try contradiction
    rename_i all
    cases Option.some.inj taken
    exact .closed all.1 all.2.1 all.2.2

def Known (m : LogMessage) : Prop := (lineOf m).isSome = true

def Written : Place → List Line → List LogMessage → Prop
  | .spawned, lines, taken => lines = [] ∧ taken = []
  | .receiving, lines, taken => lines = loggerStarted :: taken.filterMap lineOf ∧ ∀ m ∈ taken, Known m
  | .returned, lines, taken =>
    lines = loggerStarted :: taken.filterMap lineOf ++ [loggerStopped] ∧ ∀ m ∈ taken, Known m
  | .panicked, lines, taken => ∃ good bad, taken = good ++ [bad] ∧ (∀ m ∈ good, Known m) ∧ lineOf bad = none ∧
    lines = loggerStarted :: good.filterMap lineOf

def logShown (s : LogThread) : LogLabel → Option (Op LogMessage)
  | .send m => some (.offer m)
  | .recv => s.channel.head?.map (.claim 0)
  | _ => none

structure LogModels (s : LogThread) (q : Queue LogMessage) : Prop where
  waiting : s.channel = q.waiting
  offered : s.sent = q.offered
  size : s.capacity = q.capacity
  written : Written s.place s.written (q.claimed.map Prod.snd)
  drained : s.place = .returned → s.channel = [] ∧ s.senders = 0

theorem writtenMore {lines : List Line} {taken : List LogMessage} {m : LogMessage} {line : Line}
    (written : Written .receiving lines taken) (known : lineOf m = some line) :
    Written .receiving (lines ++ [line]) (taken ++ [m]) := by
  obtain ⟨same, all⟩ := written
  refine ⟨by simp [same, known], ?_⟩
  intro other member
  rcases List.mem_append.mp member with old | last
  · exact all other old
  · cases List.mem_singleton.mp last
    simp [Known, known]

theorem writtenBefore {lines : List Line} {taken : List LogMessage} {m : LogMessage}
    (written : Written .receiving lines taken) (unknown : lineOf m = none) : Written .panicked lines (taken ++ [m]) :=
  ⟨taken, m, rfl, written.2, unknown, written.1⟩

theorem logSeen {q : Queue LogMessage} {op : Op LogMessage} (models : LogModels s q) (taken : s.step l = some out)
    (shown : logShown s l = some op) : ∃ next, Queue.step q op = some next ∧ LogModels out next := by
  cases logSource taken with
  | @sent m receives room some =>
    cases Option.some.inj shown
    rw [models.waiting, models.size] at room
    refine ⟨q.offer m room, offerTaken room, ?_, ?_, models.size, models.written, ?_⟩
    · simp only [Queue.offer, models.waiting]
    · simp only [Queue.offer, models.offered]
    · intro place
      simp only at place
      simp [LogThread.receives, place] at receives
  | @wrote m rest line place first known =>
    simp only [logShown, first, List.head?_cons, Option.map_some, Option.some.injEq] at shown
    subst shown
    have waiting : q.waiting = m :: rest := models.waiting.symm.trans first
    have written := writtenMore (place ▸ models.written) known
    refine ⟨q.claim 0 m rest waiting, claimTaken waiting, rfl, models.offered, models.size, ?_, fun other => ?_⟩
    · simpa only [place, Queue.claim, List.map_append, List.map_singleton] using written
    · simp [place] at other
  | @panicked m rest place first unknown =>
    simp only [logShown, first, List.head?_cons, Option.map_some, Option.some.injEq] at shown
    subst shown
    have waiting : q.waiting = m :: rest := models.waiting.symm.trans first
    have written := writtenBefore (place ▸ models.written) unknown
    refine ⟨q.claim 0 m rest waiting, claimTaken waiting, rfl, models.offered, models.size, ?_, fun other => ?_⟩
    · simpa only [Queue.claim, List.map_append, List.map_singleton] using written
    · contradiction
  | _ => contradiction

theorem logUnseen {q : Queue LogMessage} (models : LogModels s q) (taken : s.step l = some out)
    (shown : logShown s l = none) : LogModels out q := by
  cases logSource taken with
  | run place =>
    have written := models.written
    rw [place] at written
    obtain ⟨lines, nobody⟩ := written
    refine ⟨models.waiting, models.offered, models.size, ?_, fun other => by contradiction⟩
    simp [Written, lines, nobody]
  | sent receives room some => contradiction
  | cloned some =>
    refine ⟨models.waiting, models.offered, models.size, models.written, fun place => ?_⟩
    rw [(models.drained place).2] at some
    contradiction
  | droppedSender some =>
    refine ⟨models.waiting, models.offered, models.size, models.written, fun place => ?_⟩
    rw [(models.drained place).2] at some
    contradiction
  | wrote place first known => simp [logShown, first] at shown
  | panicked place first unknown => simp [logShown, first] at shown
  | closed place drained gone =>
    have written := models.written
    rw [place] at written
    obtain ⟨lines, all⟩ := written
    refine ⟨models.waiting, models.offered, models.size, ?_, fun _ => ⟨drained, gone⟩⟩
    exact ⟨by rw [lines], all⟩

theorem logRefines : Refines LogThread.step Queue.step logShown LogModels := ⟨logSeen, logUnseen⟩

/- What was sent is what was taken, in order, and then what waits; and it was written
line by line, up to a message of no known level. -/
structure Logged (queueSize : Nat) (s : LogThread) : Prop where
  order : ∃ taken, s.sent = taken ++ s.channel ∧ Written s.place s.written taken
  fits : s.channel.length ≤ max queueSize 1
  drained : s.place = .returned → s.channel = [] ∧ s.senders = 0

theorem logModelled {queueSize : Nat} {labels : List LogLabel}
    (ran : run LogThread.step (startLogger queueSize) labels = some s) :
    ∃ q, LogModels s q ∧ q.capacity = max queueSize 1 := by
  have start : LogModels (startLogger queueSize) (Queue.empty (max queueSize 1)) :=
    ⟨rfl, rfl, rfl, ⟨rfl, rfl⟩, fun other => by contradiction⟩
  obtain ⟨q, queued, models⟩ := runRefined logRefines start ran
  exact ⟨q, models, (claimsRun queued).2⟩

theorem writtenInOrder {queueSize : Nat} {labels : List LogLabel}
    (ran : run LogThread.step (startLogger queueSize) labels = some s) : Logged queueSize s := by
  obtain ⟨q, models, size⟩ := logModelled ran
  refine ⟨⟨q.claimed.map Prod.snd, ?_, models.written⟩, ?_, models.drained⟩
  · rw [models.offered, models.waiting]
    exact q.whole
  · rw [models.waiting, ← size]
    exact q.fits

def bothLogged : List LogLabel :=
  [.run, .cloneSender, .send ⟨"INFO", "vetis", "ready"⟩, .send ⟨"ERROR", "vetis", "refused"⟩, .dropSender, .recv,
    .recv, .dropSender, .closed]

theorem bothWritten : ∃ s, run LogThread.step (startLogger 8) bothLogged = some s ∧ s.place = .returned ∧
    s.written = [loggerStarted, ⟨.info, "vetis", "ready"⟩, ⟨.error, "vetis", "refused"⟩, loggerStopped] ∧ Logged 8 s := by
  have ran : run LogThread.step (startLogger 8) bothLogged = some _ := rfl
  exact ⟨_, ran, rfl, rfl, writtenInOrder ran⟩

theorem badStays (held : (s.place = .receiving ∧ ∃ m ∈ s.channel, ¬ Known m) ∨ s.place = .panicked)
    (gone : s.senders = 0) (taken : s.step l = some out) :
    ((out.place = .receiving ∧ ∃ m ∈ out.channel, ¬ Known m) ∨ out.place = .panicked) ∧ out.senders = 0 := by
  cases logSource taken with
  | run place => simp [place] at held
  | sent receives room some => simp [gone] at some
  | cloned some => simp [gone] at some
  | droppedSender some => simp [gone] at some
  | @wrote m rest line place first known =>
    refine ⟨.inl ⟨place, ?_⟩, gone⟩
    rcases held with ⟨_, bad, member, unknown⟩ | other
    · rw [first] at member
      rcases List.mem_cons.mp member with rfl | later
      · exact absurd (by simp [Known, known]) unknown
      · exact ⟨bad, later, unknown⟩
    · simp [place] at other
  | panicked place first unknown => exact ⟨.inr rfl, gone⟩
  | closed place drained _ =>
    rcases held with ⟨_, bad, member, _⟩ | other
    · simp [drained] at member
    · simp [place] at other

theorem drainsKnown (place : s.place = .receiving) (gone : s.senders = 0) (all : ∀ m ∈ s.channel, Known m) :
    ∃ more out, run LogThread.step s more = some out ∧ out.place = .returned := by
  induction channel : s.channel generalizing s with
  | nil =>
    exact ⟨[.closed], _, runSingle.mpr (if_pos ⟨place, channel, gone⟩), rfl⟩
  | cons m rest ih =>
    obtain ⟨line, known⟩ := Option.isSome_iff_exists.mp (all m (channel ▸ List.mem_cons_self))
    have taken : s.step .recv = some { s with channel := rest, written := s.written ++ [line] } := by
      simp only [LogThread.step, place, channel, known]
    have later : ∀ m ∈ rest, Known m := fun m member => all m (channel ▸ List.mem_cons_of_mem _ member)
    obtain ⟨more, out, ran, returned⟩ := @ih { s with channel := rest, written := s.written ++ [line] } place gone later rfl
    exact ⟨.recv :: more, out, runCons.mpr ⟨_, taken, ran⟩, returned⟩

theorem returnsIff (place : s.place = .receiving) (gone : s.senders = 0) :
    (∃ more out, run LogThread.step s more = some out ∧ out.place = .returned) ↔ ∀ m ∈ s.channel, Known m := by
  constructor
  · rintro ⟨more, out, ran, returned⟩
    by_contra bad
    obtain ⟨m, member, unknown⟩ : ∃ m ∈ s.channel, ¬ Known m := by
      by_contra none
      exact bad fun m member => by_contra fun unknown => none ⟨m, member, unknown⟩
    have ends := invariant (fun s : LogThread => ((s.place = .receiving ∧ ∃ m ∈ s.channel, ¬ Known m) ∨
      s.place = .panicked) ∧ s.senders = 0) (fun held taken => badStays held.1 held.2 taken)
      ⟨.inl ⟨place, m, member, unknown⟩, gone⟩ ran
    simp [returned] at ends
  · exact drainsKnown place gone

theorem refusedReturns : ∃ s, run LogThread.step (startLogger 8)
    [.run, .send ⟨"INFO", "vetis", "ready"⟩, .send ⟨"ERROR", "vetis", "refused"⟩, .dropSender] = some s ∧
      ((∃ more out, run LogThread.step s more = some out ∧ out.place = .returned) ↔ ∀ m ∈ s.channel, Known m) :=
  ⟨_, rfl, returnsIff rfl rfl⟩

end

end VetisTokio.LogWorker
