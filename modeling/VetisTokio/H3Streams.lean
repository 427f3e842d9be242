import VetisTokio.H3Answers

/-! The streams of one HTTP/3 connection over time. What is called on a stream is the
start of one conversation, the head, the data and the end; it only ever gets longer,
and no stream is touched before those accepted earlier are done with. -/
namespace VetisTokio.H3Streams
open HttpData ConfigData HostModel HostRoute ServiceHttp H3Model H3Bodies H3Answers Fuel

section
variable {sendData : DataSends} {body : HttpBody} {stream : SendStream} {response : Response}

theorem endsLater {n : Nat} (here : body 0 ≠ none) (ends : EndsFirst (later body) n) : EndsFirst body (n + 1) :=
  ⟨ends.ended, openLater here ends.opened⟩

structure Sends (body : HttpBody) (fuel : Nat) (chunks : List Bytes) (result : Option (VetisResult Unit)) : Prop where
  first : chunks <+: frames body fuel
  whole : result = some (.ok ()) → ∃ n, EndsFirst body n ∧ chunks = frames body n

theorem drainSends (fuel : Nat) : ∃ chunks, (drain sendData body fuel).calls = chunks.map .sendData ∧
    Sends body fuel chunks (drain sendData body fuel).result := by
  induction fuel generalizing sendData body with
  | zero => exact ⟨[], rfl, List.nil_prefix, fun ended => by contradiction⟩
  | succ fuel ih =>
    rcases itemCases body with none | ⟨bytes, item⟩ | item
    · rw [drainEnd none]
      exact ⟨[], rfl, List.nil_prefix, fun _ => ⟨0, ⟨none, fun k below => absurd below (Nat.not_lt_zero k)⟩, rfl⟩⟩
    · have single : [bytes] <+: frames body (fuel + 1) := by
        rw [framesData item]
        exact List.cons_prefix_cons.mpr ⟨rfl, List.nil_prefix⟩
      rcases sendCases sendData with sent | ⟨text, failed⟩ | held
      · obtain ⟨chunks, calls, sends⟩ := @ih (later sendData) (later body)
        rw [drainData item sent]
        refine ⟨bytes :: chunks, by rw [Served.after, calls]; rfl, ?_, ?_⟩
        · rw [framesData item]
          exact List.cons_prefix_cons.mpr ⟨rfl, sends.first⟩
        · intro ended
          obtain ⟨n, ends, all⟩ := sends.whole ended
          exact ⟨n + 1, endsLater (by simp [item]) ends, by rw [framesData item, all]⟩
      · rw [drainFailed item failed]
        exact ⟨[bytes], rfl, single, fun ended => by simp at ended⟩
      · rw [drainHeld item held]
        exact ⟨[bytes], rfl, single, fun ended => by contradiction⟩
    · obtain ⟨chunks, calls, sends⟩ := @ih sendData (later body)
      rw [drainSkipped item]
      refine ⟨chunks, calls, by rw [framesSkipped item]; exact sends.first, ?_⟩
      intro ended
      obtain ⟨n, ends, all⟩ := sends.whole ended
      exact ⟨n + 1, endsLater (skippedOpen item) ends, by rw [framesSkipped item, all]⟩

theorem drainGrows (fuel : Nat) : (drain sendData body fuel).calls <+: (drain sendData body (fuel + 1)).calls := by
  induction fuel generalizing sendData body with
  | zero => exact List.nil_prefix
  | succ fuel ih =>
    rcases itemCases body with none | ⟨bytes, item⟩ | item
    · rw [drainEnd none, drainEnd none]
    · rcases sendCases sendData with sent | ⟨text, failed⟩ | held
      · rw [drainData item sent, drainData item sent]
        exact List.cons_prefix_cons.mpr ⟨rfl, ih⟩
      · rw [drainFailed item failed, drainFailed item failed]
      · rw [drainHeld item held, drainHeld item held]
    · rw [drainSkipped item, drainSkipped item]
      exact ih

theorem bodyGrows (fuel : Nat) : (serveBody stream body fuel).calls <+: (serveBody stream body (fuel + 1)).calls := by
  by_cases stopped : Over (drain stream.sendData body fuel)
  · rw [bodyStays stopped]
  · rw [bodyRunning stopped]
    exact (drainGrows fuel).trans (bodyStarts stream body (fuel + 1))

theorem responseGrows (fuel : Nat) :
    (serveResponse stream response fuel).calls <+: (serveResponse stream response (fuel + 1)).calls := by
  cases head : stream.sendResponse with
  | none => rw [headHeld head, headHeld head]
  | some result =>
    have sent : stream.sendResponse.isSome = true := by rw [head]; rfl
    rw [headSent sent, headSent sent]
    exact List.cons_prefix_cons.mpr ⟨rfl, bodyGrows fuel⟩

/- A conversation: one head, data in the order of the body, and the end only behind
all of it. -/
structure Spoken (response : Response) (fuel : Nat) (calls : List StreamCall) : Prop where
  shape : ∃ chunks finished, calls = headOf response :: chunks.map .sendData ++ (if finished then [.finish] else []) ∧
    chunks <+: frames response.body fuel ∧
      (finished = true → ∃ n, EndsFirst response.body n ∧ chunks = frames response.body n)

theorem responseSpoken (stream : SendStream) (response : Response) (fuel : Nat) :
    Spoken response fuel (serveResponse stream response fuel).calls := by
  cases head : stream.sendResponse with
  | none =>
    rw [headHeld head]
    exact ⟨[], false, rfl, List.nil_prefix, fun finished => by contradiction⟩
  | some result =>
    have sent : stream.sendResponse.isSome = true := by rw [head]; rfl
    obtain ⟨chunks, calls, sends⟩ := @drainSends stream.sendData response.body fuel
    rw [headSent sent]
    unfold serveBody Served.after
    dsimp only
    split
    · rename_i ended
      refine ⟨chunks, true, ?_, sends.first, fun _ => sends.whole ended⟩
      rw [calls]
      rfl
    · refine ⟨chunks, false, ?_, sends.first, fun finished => by contradiction⟩
      simp only [calls, Bool.false_eq_true, if_false, List.append_nil]

end

section
variable {crates : RouteCrates} {files : HostFiles} {logger : Option Logger} {errorText : VetisError → String}
  {service : H3Service crates files logger} {closed : Except String Unit} {incoming : Incoming} {here earlier : Resolution}
  {accepted : List Resolution} {i j fuel later : Nat}

def Speaks (service : H3Service crates files logger) (fuel : Nat) : Resolution → List StreamCall → Prop
  | .request incoming, calls => calls = [] ∨ isWebTransport incoming = false ∧
      ∃ response, (answerOf service incoming.request).response = .ok response ∧ Spoken response fuel calls
  | _, calls => calls = []

theorem requestSpeaks : Speaks service fuel (.request incoming) (serveRequest errorText service incoming fuel).calls := by
  cases kind : isWebTransport incoming with
  | true => exact .inl (rawSilent kind fuel)
  | false =>
    by_cases returns : Refused service incoming ∨ incoming.returns = true
    · obtain ⟨response, answer⟩ := alwaysAnswers service incoming.request
      rw [httpServed errorText kind ((awaitedReady returns).trans (congrArg some answer))]
      exact .inr ⟨kind, response, answer, responseSpoken incoming.stream response fuel⟩
    · exact .inl (by rw [neverServed (awaitedNever returns)])

theorem requestGrows : (serveRequest errorText service incoming fuel).calls <+:
    (serveRequest errorText service incoming (fuel + 1)).calls := by
  cases kind : isWebTransport incoming with
  | true => rw [rawSilent kind, rawSilent kind]
  | false =>
    by_cases returns : Refused service incoming ∨ incoming.returns = true
    · obtain ⟨response, answer⟩ := alwaysAnswers service incoming.request
      rw [httpServed errorText kind ((awaitedReady returns).trans (congrArg some answer))]
      exact responseGrows fuel
    · rw [neverServed (awaitedNever returns), neverServed (awaitedNever returns)]

theorem resolvedSpeaks (resolution : Resolution) :
    Speaks service fuel resolution (serveResolved errorText service resolution fuel).calls := by
  cases resolution with
  | request incoming => exact requestSpeaks
  | failed text => rfl
  | waiting => rfl

theorem resolvedGrows (resolution : Resolution) (enough : fuel ≤ later) :
    (serveResolved errorText service resolution fuel).calls <+: (serveResolved errorText service resolution later).calls := by
  obtain ⟨more, rfl⟩ := Nat.exists_eq_add_of_le enough
  induction more with
  | zero => exact List.prefix_rfl
  | succ more ih =>
    refine (ih (Nat.le_add_right _ _)).trans ?_
    cases resolution with
    | request incoming => exact requestGrows
    | failed text => exact List.prefix_rfl
    | waiting => exact List.prefix_rfl

def ReachedAt (errorText : VetisError → String) (service : H3Service crates files logger) (accepted : List Resolution)
    (i fuel : Nat) : Prop :=
  ∀ j < i, ∀ earlier, accepted[j]? = some earlier → Over (serveResolved errorText service earlier fuel)

theorem reachedLater (reached : ReachedAt errorText service accepted i fuel) (enough : fuel ≤ later) :
    ReachedAt errorText service accepted i later := by
  intro j below earlier before
  have stopped := reached j below earlier before
  rw [settledLater (resolvedSettled earlier) stopped enough]
  exact stopped

theorem reachedOrSilent (errorText : VetisError → String) (service : H3Service crates files logger)
    (closed : Except String Unit) (accepted : List Resolution) (i fuel : Nat) :
    ReachedAt errorText service accepted i fuel ∨ streamCalls errorText service closed accepted i fuel = [] := by
  by_cases reached : ReachedAt errorText service accepted i fuel
  · exact .inl reached
  · refine .inr ?_
    simp only [ReachedAt, not_forall] at reached
    obtain ⟨j, below, earlier, before, runs⟩ := reached
    exact streamBlocked below before runs

theorem nobodyThere (absent : accepted[i]? = none) : streamCalls errorText service closed accepted i fuel = [] := by
  induction accepted generalizing i with
  | nil => rfl
  | cons first rest ih =>
    cases i with
    | zero => contradiction
    | succ i =>
      by_cases stopped : Over (serveResolved errorText service first fuel)
      · rw [streamCalls, connectionOver stopped]
        exact ih absent
      · rw [streamCalls, connectionRunning stopped]
        rfl

structure Conversations (errorText : VetisError → String) (service : H3Service crates files logger)
    (closed : Except String Unit) (accepted : List Resolution) (fuel : Nat) : Prop where
  spoken : ∀ (i : Nat) here, accepted[i]? = some here →
    Speaks service fuel here (streamCalls errorText service closed accepted i fuel)
  grows : ∀ i later, fuel ≤ later →
    streamCalls errorText service closed accepted i fuel <+: streamCalls errorText service closed accepted i later
  single : ∀ i j later, j < i → fuel ≤ later → streamCalls errorText service closed accepted i fuel ≠ [] →
    streamCalls errorText service closed accepted j later = streamCalls errorText service closed accepted j fuel

theorem silentSpeaks (resolution : Resolution) : Speaks service fuel resolution [] := by
  cases resolution with
  | request incoming => exact .inl rfl
  | failed text => rfl
  | waiting => rfl

theorem streamsInOrder (errorText : VetisError → String) (service : H3Service crates files logger)
    (closed : Except String Unit) (accepted : List Resolution) (fuel : Nat) :
    Conversations errorText service closed accepted fuel := by
  refine ⟨?_, ?_, ?_⟩
  · intro i here place
    rcases reachedOrSilent errorText service closed accepted i fuel with reached | silent
    · rw [streamReached reached place]
      exact resolvedSpeaks here
    · rw [silent]
      exact silentSpeaks here
  · intro i later enough
    rcases reachedOrSilent errorText service closed accepted i fuel with reached | silent
    · cases place : accepted[i]? with
      | none =>
        rw [nobodyThere place]
        exact List.nil_prefix
      | some here =>
        rw [streamReached reached place, streamReached (reachedLater reached enough) place]
        exact resolvedGrows here enough
    · rw [silent]
      exact List.nil_prefix
  · intro i j later below enough touched
    have reached := (reachedOrSilent errorText service closed accepted i fuel).resolve_right touched
    have before : ReachedAt errorText service accepted j fuel := fun k under => reached k (Nat.lt_trans under below)
    cases place : accepted[j]? with
    | none => rw [nobodyThere place, nobodyThere place]
    | some earlier =>
      rw [streamReached before place, streamReached (reachedLater before enough) place,
        settledLater (resolvedSettled earlier) (reached j below earlier place) enough]

end

end VetisTokio.H3Streams
