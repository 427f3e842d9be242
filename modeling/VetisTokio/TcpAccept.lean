import Mathlib.Data.List.Induction
import VetisTokio.DispatcherRuns

/-! The accept loop of the TCP dispatcher. After an error the arguments of
`debug!` accept once more, and whatever that yields is only printed, so the loop
takes the results of an error block in pairs. -/
namespace VetisTokio.TcpAccept
open HttpData ConfigData HostModel TlsFactory WorkerModel DispatcherModel DispatcherRuns

abbrev Accept := Except String TcpStream

def acceptResult : TcpLabel → Option Accept
  | .accept result => some result
  | _ => none

def results (labels : List TcpLabel) : List Accept := labels.filterMap acceptResult

def successes (accepts : List Accept) : List TcpStream := accepts.filterMap Except.toOption

def isError (accept : Accept) : Bool := !accept.isOk

def trailingErrors (accepts : List Accept) : Nat := (accepts.reverse.takeWhile isError).length

/- The errors right before each success are even in number. -/
def Spared (accepts : List Accept) : Prop :=
  ∀ before stream after, accepts = before ++ .ok stream :: after → trailingErrors before % 2 = 0

theorem successesOk (accepts : List Accept) (stream : TcpStream) :
    successes (accepts ++ [.ok stream]) = successes accepts ++ [stream] := by
  rw [successes, List.filterMap_append]
  rfl

theorem successesError (accepts : List Accept) (text : String) :
    successes (accepts ++ [.error text]) = successes accepts := by
  rw [successes, List.filterMap_append]
  exact List.append_nil _

theorem trailingMore (accepts : List Accept) (last : Accept) :
    trailingErrors (accepts ++ [last]) = if isError last then trailingErrors accepts + 1 else 0 := by
  unfold trailingErrors
  cases bad : isError last <;> simp [bad]

theorem lastOrEarlier {accepts before after : List Accept} {last accept : Accept}
    (split : accepts ++ [last] = before ++ accept :: after) :
    (accepts = before ∧ last = accept) ∨ ∃ more, after = more ++ [last] ∧ accepts = before ++ accept :: more := by
  rcases List.eq_nil_or_concat after with rfl | ⟨more, other, rfl⟩
  · have same := List.append_inj' split rfl
    exact Or.inl ⟨same.1, by simpa using same.2⟩
  · have both : accepts ++ [last] = (before ++ accept :: more) ++ [other] := by simpa using split
    have same := List.append_inj' both rfl
    cases List.singleton_inj.mp same.2
    exact Or.inr ⟨more, by simp, same.1⟩

theorem sparedError (accepts : List Accept) (text : String) :
    Spared (accepts ++ [.error text]) ↔ Spared accepts := by
  refine ⟨?_, ?_⟩
  · intro spared before stream after split
    exact spared before stream (after ++ [.error text]) (by simp [split])
  · intro spared before stream after split
    rcases lastOrEarlier split with ⟨_, same⟩ | ⟨more, _, earlier⟩
    · contradiction
    · exact spared before stream more earlier

theorem sparedOk (accepts : List Accept) (stream : TcpStream) :
    Spared (accepts ++ [.ok stream]) ↔ Spared accepts ∧ trailingErrors accepts % 2 = 0 := by
  refine ⟨?_, ?_⟩
  · intro spared
    refine ⟨?_, spared accepts stream [] rfl⟩
    intro before other after split
    exact spared before other (after ++ [.ok stream]) (by simp [split])
  · intro ⟨spared, even⟩ before other after split
    rcases lastOrEarlier split with ⟨same, _⟩ | ⟨more, _, earlier⟩
    · exact same ▸ even
    · exact spared before other more earlier

def inHand : TcpPlace → List TcpStream
  | .sending stream => [stream]
  | _ => []

def passed (d : TcpDispatcher) : List TcpStream := d.crew.sent ++ inHand d.place

/- `short` is what makes a lost stream stay lost. -/
structure Kept (crates : Crates) (past : List TcpLabel) (d : TcpDispatcher) : Prop where
  evaluated : crates.vetis.debugEvaluates d.logger = true
  odd : trailingErrors (results past) % 2 = if d.place = .logging then 1 else 0
  short : (passed d).length ≤ (successes (results past)).length
  exact : passed d = successes (results past) ↔ Spared (results past)

variable {crates : Crates} {d out : TcpDispatcher} {past labels : List TcpLabel} {l : TcpLabel}

theorem newKept {hosts : VetisHosts Host} {config : ListenerConfig} {logger : Option Logger}
    (evaluated : crates.vetis.debugEvaluates logger = true) :
    Kept crates [] (TcpDispatcher.new hosts config logger) where
  evaluated := evaluated
  odd := rfl
  short := Nat.le_refl _
  exact := by
    refine ⟨?_, fun _ => rfl⟩
    intro _ before stream after split
    simp [results] at split

theorem resultsQuiet (past : List TcpLabel) (quiet : acceptResult l = none) :
    results (past ++ [l]) = results past := by
  rw [results, Runs.observedMore, quiet]
  exact List.append_nil _

theorem resultsMore (past : List TcpLabel) (accept : Accept) :
    results (past ++ [.accept accept]) = results past ++ [accept] :=
  Runs.observedMore acceptResult past (.accept accept)

theorem keptQuiet (kept : Kept crates past d) (quiet : acceptResult l = none) (logger : out.logger = d.logger)
    (same : passed out = passed d) (place : out.place = .logging ↔ d.place = .logging) :
    Kept crates (past ++ [l]) out := by
  have before := resultsQuiet past quiet
  refine ⟨?_, ?_, ?_, ?_⟩
  · rw [logger]
    exact kept.evaluated
  · simp only [before, place]
    exact kept.odd
  · rw [before, same]
    exact kept.short
  · rw [before, same]
    exact kept.exact

theorem startKeeps (d : TcpDispatcher) : (d.start crates).crew.sent = d.crew.sent ∧
    (d.start crates).place = .accepting ∧ (d.start crates).logger = d.logger := by
  unfold TcpDispatcher.start TcpDispatcher.init
  cases createTlsConfig crates.rustls crates.order d.hosts <;> exact ⟨rfl, rfl, rfl⟩

theorem keptStep (kept : Kept crates past d) (calm : l ≠ .stop) (taken : d.step crates l = some out) :
    Kept crates (past ++ [l]) out := by
  have odd := kept.odd
  have short := kept.short
  cases tcpSource taken with
  | poll place =>
    obtain ⟨sent, after, logger⟩ := @startKeeps crates d
    refine keptQuiet kept rfl logger ?_ (by simp [after, place])
    simp [passed, sent, after, place, inHand]
  | @accepted stream place =>
    simp only [passed, place, inHand, List.append_nil] at short
    have more := kept.exact
    simp only [passed, place, inHand, List.append_nil] at more
    simp only [place, reduceCtorEq, if_false] at odd
    refine ⟨kept.evaluated, ?_, ?_, ?_⟩
    · simp [resultsMore, trailingMore, isError, Except.isOk, Except.toBool]
    · simpa [resultsMore, successesOk, passed, inHand] using short
    · rw [resultsMore, sparedOk, ← more, successesOk]
      simp [passed, inHand, odd]
  | @logged text place evaluated =>
    simp only [place, reduceCtorEq, if_false] at odd
    refine ⟨evaluated, ?_, ?_, ?_⟩
    · simp only [resultsMore, trailingMore, isError, Except.isOk, Except.toBool, Bool.not_false, if_true]
      omega
    · simpa [resultsMore, successesError, passed, inHand, place] using short
    · rw [resultsMore, sparedError, ← kept.exact, successesError]
      simp [passed, inHand, place]
  | skipped place ignored =>
    rw [kept.evaluated] at ignored
    contradiction
  | @discarded result place =>
    simp only [place, if_true] at odd
    simp only [passed, place, inHand, List.append_nil] at short
    cases result with
    | error text =>
      refine ⟨kept.evaluated, ?_, ?_, ?_⟩
      · simp only [resultsMore, trailingMore, isError, Except.isOk, Except.toBool, Bool.not_false, if_true,
          reduceCtorEq, if_false]
        omega
      · simpa [resultsMore, successesError, passed, inHand] using short
      · rw [resultsMore, sparedError, ← kept.exact, successesError]
        simp [passed, inHand, place]
    | ok stream =>
      refine ⟨kept.evaluated, ?_, ?_, ?_⟩
      · simp [resultsMore, trailingMore, isError, Except.isOk, Except.toBool]
      · rw [resultsMore, successesOk, List.length_append]
        simp only [passed, inHand, List.append_nil]
        omega
      · rw [resultsMore, sparedOk, successesOk]
        refine ⟨?_, fun spared => absurd spared.2 (by omega)⟩
        intro same
        have length := congrArg List.length same
        simp only [passed, inHand, List.append_nil, List.length_append, List.length_singleton] at length
        omega
  | @sent stream crew place room =>
    obtain ⟨_, rfl⟩ := sendSource room
    exact keptQuiet kept rfl rfl (by simp [passed, place, inHand]) (by simp [place])
  | stopped waiting => exact absurd rfl calm
  | joined place isOver => exact keptQuiet kept rfl rfl (by simp [passed, place, inHand, Crew.drop]) (by simp [place])
  | worker moved =>
    have same := (crewKeeps moved).1
    exact keptQuiet kept rfl rfl (by simp [passed, same]) Iff.rfl

theorem keptRun {hosts : VetisHosts Host} {config : ListenerConfig} {logger : Option Logger}
    (evaluated : crates.vetis.debugEvaluates logger = true) (calm : TcpLabel.stop ∉ labels)
    (ran : Runs.run (TcpDispatcher.step crates) (TcpDispatcher.new hosts config logger) labels = some d) :
    Kept crates labels d := by
  refine Runs.historyInvariant (Kept crates) (fun _ l => l ≠ .stop) keptStep (newKept evaluated) ?_ ran
  refine Runs.meetsOfForall ?_
  intro l member _ same
  exact calm (same ▸ member)

def LosesNothing (crates : Crates) (hosts : VetisHosts Host) (config : ListenerConfig) (logger : Option Logger) :
    Prop :=
  ∀ labels d, TcpLabel.stop ∉ labels →
    Runs.run (TcpDispatcher.step crates) (TcpDispatcher.new hosts config logger) labels = some d →
      passed d = successes (results labels)

theorem losesNothingIff {hosts : VetisHosts Host} {config : ListenerConfig} {logger : Logger}
    (evaluates : ∀ attached, crates.vetis.debugEvaluates (some attached) = true) (calm : TcpLabel.stop ∉ labels)
    (ran : Runs.run (TcpDispatcher.step crates) (TcpDispatcher.new hosts config (some logger)) labels = some d) :
    passed d = successes (results labels) ↔ Spared (results labels) :=
  (keptRun (evaluates logger) calm ran).exact

def plainConfig : ListenerConfig := ⟨.v4 0, 80, 1⟩
def acceptedStream : TcpStream := ⟨0, .ok ⟨.v4 0x7f000001, 40000⟩, .ok [0x47, 0x45]⟩
def descriptors : Accept := .error "Too many open files"

def errorPair : List TcpLabel := [.poll, .accept descriptors, .accept descriptors, .accept (.ok acceptedStream), .send]

theorem errorPairLosesNothing : ∃ d, Runs.run (TcpDispatcher.step sampleCrates)
    (TcpDispatcher.new ∅ plainConfig (some ⟨⟩)) errorPair = some d ∧
      (passed d = successes (results errorPair) ↔ Spared (results errorPair)) := by
  have ran : Runs.run (TcpDispatcher.step sampleCrates) (TcpDispatcher.new ∅ plainConfig (some ⟨⟩)) errorPair =
    some _ := rfl
  exact ⟨_, ran, losesNothingIff (fun _ => rfl) (by simp [errorPair]) ran⟩

theorem oneErrorLoses : ¬ ∀ crates hosts config logger,
    (∀ attached, crates.vetis.debugEvaluates (some attached) = true) →
      LosesNothing crates hosts config (some logger) := by
  intro claim
  have all := claim sampleCrates ∅ plainConfig ⟨⟩ (fun _ => rfl)
    [.poll, .accept descriptors, .accept (.ok acceptedStream)] _ (by simp) rfl
  exact absurd all (by decide)

end VetisTokio.TcpAccept
