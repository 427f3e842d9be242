import VetisTokio.H3Bodies

/-! Which refused requests of an HTTP/3 connection get their response. Requests are
served one after the other, so a request waits for all those before it. -/
namespace VetisTokio.H3Answers
open HttpData ConfigData HostModel HostRoute ServiceHttp H3Model H3Bodies Fuel

section
variable {crates : RouteCrates} {files : HostFiles} {logger : Option Logger} {errorText : VetisError → String}
  {service : H3Service crates files logger} {closed : Except String Unit} {incoming : Incoming}
  {earlier : Resolution} {accepted : List Resolution} {i j fuel : Nat}

/- No handler gets the request: no authority, no such host, or a path that leads nowhere. -/
def Refused (service : H3Service crates files logger) (incoming : Incoming) : Prop :=
  handlerCalls service incoming.request = []

def streamCalls (errorText : VetisError → String) (service : H3Service crates files logger)
    (closed : Except String Unit) (accepted : List Resolution) (i fuel : Nat) : List StreamCall :=
  ((serveConnection errorText service closed fuel accepted).streams[i]?).getD []

structure Takes (stream : SendStream) (body : HttpBody) (n : Nat) : Prop where
  opened : ∀ k < n, body k ≠ none
  head : stream.sendResponse.isSome = true
  data : ∀ k, k + 1 < (frames body n).length → stream.sendData k = some (.ok ())

/- The head, the data as far as the stream takes it, and the end behind all of it. -/
structure SentOn (stream : SendStream) (response : Response) (calls : Nat → List StreamCall) : Prop where
  head : ∃ fuel, headOf response ∈ calls fuel
  data : ∀ n, Takes stream response.body n → ∃ fuel,
    headOf response :: (frames response.body n).map .sendData <+: calls fuel
  whole : ∀ n, stream.sendResponse.isSome = true → EndsFirst response.body n →
    Delivered stream.sendData response.body n → ∃ fuel,
      calls fuel = headOf response :: (frames response.body n).map .sendData ++ [.finish]

def Answered (service : H3Service crates files logger) (incoming : Incoming) (calls : Nat → List StreamCall) : Prop :=
  ∃ response, (answerOf service incoming.request).response = .ok response ∧ SentOn incoming.stream response calls

/- No send is held up for ever: all of the body gets through, or a send of it fails. -/
structure Completes (stream : SendStream) (body : HttpBody) : Prop where
  head : stream.sendResponse.isSome = true
  rest : ((∃ n, body n = none ∧ Delivered stream.sendData body n) ∧ stream.finish.isSome = true) ∨
    SendFails stream.sendData body

structure ServedToEnd (service : H3Service crates files logger) (incoming : Incoming) : Prop where
  returns : Refused service incoming ∨ incoming.returns = true
  completes : isWebTransport incoming = true ∨ ∀ response, (answerOf service incoming.request).response = .ok response →
    Completes incoming.stream response.body

def Passed (service : H3Service crates files logger) : Resolution → Prop
  | .request incoming => ServedToEnd service incoming
  | .failed _ => True
  | .waiting => False

theorem alwaysAnswers (service : H3Service crates files logger) (req : Request) :
    ∃ response, (answerOf service req).response = .ok response := by
  unfold answerOf ServiceQuic.HttpService.call
  split
  · exact ⟨_, rfl⟩
  · split <;> exact ⟨_, rfl⟩

theorem awaitedReady (returns : Refused service incoming ∨ incoming.returns = true) :
    awaited service incoming = some (answerOf service incoming.request).response := by
  rcases returns with refused | returns
  · rw [awaited, show handlerCalls service incoming.request = [] from refused]
    rfl
  · simp [awaited, returns]

theorem awaitedNever (runs : ¬ (Refused service incoming ∨ incoming.returns = true)) :
    awaited service incoming = none := by
  obtain ⟨handled, endless⟩ := not_or.mp runs
  have some : (handlerCalls service incoming.request).isEmpty = false :=
    Bool.eq_false_iff.mpr fun empty => handled (List.isEmpty_iff.mp empty)
  simp [awaited, some, Bool.eq_false_iff.mpr endless]

theorem bodyOver (stream : SendStream) (body : HttpBody) (fuel : Nat) : Over (serveBody stream body fuel) ↔
    (Finished (drain stream.sendData body fuel) ∧ stream.finish.isSome = true) ∨ Failed (drain stream.sendData body fuel) := by
  unfold serveBody Over Finished Failed
  dsimp only
  cases (drain stream.sendData body fuel).result with
  | none => simp
  | some result => cases result <;> simp

theorem bodyRunning {stream : SendStream} {body : HttpBody} (runs : ¬ Over (drain stream.sendData body fuel)) :
    serveBody stream body fuel = drain stream.sendData body fuel := by
  have missing := Option.not_isSome_iff_eq_none.mp runs
  simp only [serveBody, missing]
  rw [← missing]

theorem bodyStays {stream : SendStream} {body : HttpBody} (stopped : Over (drain stream.sendData body fuel)) :
    serveBody stream body (fuel + 1) = serveBody stream body fuel := by
  have same := (drainSettled stream.sendData body).step fuel stopped
  simp only [serveBody, same]

theorem bodyStarts (stream : SendStream) (body : HttpBody) (fuel : Nat) :
    (drain stream.sendData body fuel).calls <+: (serveBody stream body fuel).calls := by
  unfold serveBody
  dsimp only
  split
  · exact List.prefix_append _ _
  · exact List.prefix_rfl

theorem headFirst (stream : SendStream) (response : Response) (fuel : Nat) :
    headOf response ∈ (serveResponse stream response fuel).calls := by
  unfold serveResponse
  split <;> exact List.mem_cons_self

theorem responseSettled (stream : SendStream) (response : Response) : Settled Over (serveResponse stream response) := by
  constructor
  intro fuel stopped
  cases head : stream.sendResponse with
  | none => rw [headHeld head, headHeld head]
  | some result =>
    have sent : stream.sendResponse.isSome = true := by rw [head]; rfl
    rw [headSent sent] at stopped
    have ended : Over (drain stream.sendData response.body fuel) := by
      rw [overCases]
      exact ((bodyOver stream response.body fuel).mp stopped).imp And.left id
    rw [headSent sent, headSent sent, bodyStays ended]

theorem responseEndsIff (stream : SendStream) (response : Response) :
    Ends Over (serveResponse stream response) ↔ Completes stream response.body := by
  cases head : stream.sendResponse with
  | none =>
    refine iff_of_false ?_ fun completes => by simpa [head] using completes.head
    rintro ⟨fuel, stopped⟩
    rw [headHeld head] at stopped
    contradiction
  | some result =>
    have sent : stream.sendResponse.isSome = true := by rw [head]; rfl
    have body : ∀ fuel, Over (serveResponse stream response fuel) ↔ Over (serveBody stream response.body fuel) := by
      intro fuel
      rw [headSent sent]
      rfl
    have ends : Ends Over (serveResponse stream response) ↔
        (Ends Finished (drain stream.sendData response.body) ∧ stream.finish.isSome = true) ∨
          Ends Failed (drain stream.sendData response.body) := by
      simp only [Ends, body, bodyOver, exists_or, exists_and_right]
    rw [ends, finishedIff, failedIff]
    exact ⟨fun rest => ⟨sent, rest⟩, Completes.rest⟩

theorem rawServed (kind : isWebTransport incoming = true) (fuel : Nat) :
    serveRequest errorText service incoming fuel = serveRaw errorText (awaited service incoming) := by
  rw [serveRequest, if_pos kind]

theorem httpServed (errorText : VetisError → String) {response : Response} (kind : isWebTransport incoming = false)
    (ready : awaited service incoming = some (.ok response)) :
    serveRequest errorText service incoming = serveResponse incoming.stream response := by
  funext fuel
  simp [serveRequest, kind, serveHttp, ready]

theorem neverServed (never : awaited service incoming = none) (fuel : Nat) :
    serveRequest errorText service incoming fuel = ⟨[], none⟩ := by
  simp [serveRequest, serveRaw, serveHttp, never]

theorem rawSilent (kind : isWebTransport incoming = true) (fuel : Nat) :
    (serveRequest errorText service incoming fuel).calls = [] := by
  rw [rawServed kind]
  unfold serveRaw
  split <;> rfl

theorem requestSettled (incoming : Incoming) : Settled Over (serveRequest errorText service incoming) := by
  cases kind : isWebTransport incoming with
  | true => exact ⟨fun fuel _ => by rw [rawServed kind, rawServed kind]⟩
  | false =>
    by_cases returns : Refused service incoming ∨ incoming.returns = true
    · obtain ⟨response, answer⟩ := alwaysAnswers service incoming.request
      rw [httpServed errorText kind ((awaitedReady returns).trans (congrArg some answer))]
      exact responseSettled incoming.stream response
    · have never := awaitedNever returns
      exact ⟨fun fuel _ => by rw [neverServed never, neverServed never]⟩

theorem requestEndsIff (incoming : Incoming) :
    Ends Over (serveRequest errorText service incoming) ↔ ServedToEnd service incoming := by
  by_cases returns : Refused service incoming ∨ incoming.returns = true
  · obtain ⟨response, answer⟩ := alwaysAnswers service incoming.request
    have ready := (awaitedReady returns).trans (congrArg some answer)
    cases kind : isWebTransport incoming with
    | true =>
      refine iff_of_true ⟨0, ?_⟩ ⟨returns, .inl kind⟩
      rw [rawServed kind, ready]
      rfl
    | false =>
      rw [httpServed errorText kind ready, responseEndsIff]
      constructor
      · intro completes
        refine ⟨returns, .inr fun other same => ?_⟩
        rw [answer] at same
        cases Except.ok.inj same
        exact completes
      · intro served
        exact (served.completes.resolve_left (by simp [kind])) response answer
  · refine iff_of_false ?_ fun served => returns served.returns
    rintro ⟨fuel, stopped⟩
    rw [neverServed (awaitedNever returns)] at stopped
    contradiction

theorem resolvedSettled (resolution : Resolution) : Settled Over (serveResolved errorText service resolution) := by
  cases resolution with
  | request incoming => exact requestSettled incoming
  | failed text => exact ⟨fun fuel _ => rfl⟩
  | waiting => exact ⟨fun fuel _ => rfl⟩

theorem resolvedEndsIff (resolution : Resolution) :
    Ends Over (serveResolved errorText service resolution) ↔ Passed service resolution := by
  cases resolution with
  | request incoming => exact requestEndsIff incoming
  | failed text => exact iff_of_true ⟨0, rfl⟩ trivial
  | waiting =>
    refine iff_of_false ?_ id
    rintro ⟨fuel, stopped⟩
    contradiction

theorem connectionOver (stopped : Over (serveResolved errorText service earlier fuel)) (rest : List Resolution) :
    serveConnection errorText service closed fuel (earlier :: rest) =
      (serveConnection errorText service closed fuel rest).after (serveResolved errorText service earlier fuel).calls := by
  obtain ⟨result, ended⟩ := Option.isSome_iff_exists.mp stopped
  rw [serveConnection]
  simp only [ended]

theorem connectionRunning (runs : ¬ Over (serveResolved errorText service earlier fuel)) (rest : List Resolution) :
    serveConnection errorText service closed fuel (earlier :: rest) =
      ⟨[(serveResolved errorText service earlier fuel).calls], none⟩ := by
  have missing : (serveResolved errorText service earlier fuel).result = none := Option.not_isSome_iff_eq_none.mp runs
  rw [serveConnection]
  simp only [missing]

theorem firstStream (first : Resolution) (rest : List Resolution) :
    streamCalls errorText service closed (first :: rest) 0 fuel = (serveResolved errorText service first fuel).calls := by
  by_cases stopped : Over (serveResolved errorText service first fuel)
  · rw [streamCalls, connectionOver stopped]
    rfl
  · rw [streamCalls, connectionRunning stopped]
    rfl

theorem streamReached {here : Resolution} (ends : ∀ j < i, ∀ earlier, accepted[j]? = some earlier →
      Over (serveResolved errorText service earlier fuel)) (place : accepted[i]? = some here) :
    streamCalls errorText service closed accepted i fuel = (serveResolved errorText service here fuel).calls := by
  induction accepted generalizing i with
  | nil => contradiction
  | cons first rest ih =>
    cases i with
    | zero =>
      cases Option.some.inj place
      exact firstStream here rest
    | succ i =>
      have tail := ih (fun j below earlier => ends (j + 1) (Nat.succ_lt_succ below) earlier) place
      rw [← tail, streamCalls, connectionOver (ends 0 (Nat.succ_pos i) first rfl)]
      rfl

theorem streamBlocked (below : j < i) (before : accepted[j]? = some earlier)
    (runs : ¬ Over (serveResolved errorText service earlier fuel)) :
    streamCalls errorText service closed accepted i fuel = [] := by
  induction accepted generalizing i j with
  | nil => contradiction
  | cons first rest ih =>
    cases i with
    | zero => contradiction
    | succ i =>
      cases j with
      | zero =>
        cases Option.some.inj before
        rw [streamCalls, connectionRunning runs]
        rfl
      | succ j =>
        have tail := ih (Nat.lt_of_succ_lt_succ below) before
        by_cases stopped : Over (serveResolved errorText service first fuel)
        · rw [streamCalls, connectionOver stopped]
          exact tail
        · rw [streamCalls, connectionRunning stopped]
          rfl

theorem earlierEnd (errorText : VetisError → String)
    (ends : ∀ j < i, ∀ earlier, accepted[j]? = some earlier → Passed service earlier) :
    ∃ fuel, ∀ later, fuel ≤ later → ∀ j < i, ∀ earlier, accepted[j]? = some earlier →
      Over (serveResolved errorText service earlier later) := by
  have settled : ∀ run ∈ (accepted.take i).map (serveResolved errorText service), Settled Over run := by
    intro run member
    obtain ⟨earlier, _, rfl⟩ := List.mem_map.mp member
    exact resolvedSettled earlier
  have finite : ∀ run ∈ (accepted.take i).map (serveResolved errorText service), Ends Over run := by
    intro run member
    obtain ⟨earlier, taken, rfl⟩ := List.mem_map.mp member
    obtain ⟨j, place⟩ := List.mem_iff_getElem?.mp taken
    rw [List.getElem?_take] at place
    split at place <;> try contradiction
    rename_i below
    exact (resolvedEndsIff earlier).mpr (ends j below earlier place)
  obtain ⟨fuel, all⟩ := commonFuel settled finite
  refine ⟨fuel, fun later enough j below earlier place => all later enough _ (List.mem_map_of_mem ?_)⟩
  exact List.mem_of_getElem? (by rw [List.getElem?_take_of_lt below, place])

theorem refusedAnsweredIff (here : accepted[i]? = some (.request incoming)) (refused : Refused service incoming) :
    Answered service incoming (streamCalls errorText service closed accepted i) ↔ isWebTransport incoming = false ∧
      ∀ j < i, ∀ earlier, accepted[j]? = some earlier → Passed service earlier := by
  constructor
  · rintro ⟨response, answer, sent⟩
    obtain ⟨fuel, head⟩ := sent.head
    have reached : ∀ j < i, ∀ earlier, accepted[j]? = some earlier →
        Over (serveResolved errorText service earlier fuel) := by
      intro j below earlier before
      by_contra runs
      rw [streamBlocked below before runs] at head
      contradiction
    refine ⟨?_, fun j below earlier before => (resolvedEndsIff earlier).mp ⟨fuel, reached j below earlier before⟩⟩
    by_contra kind
    rw [streamReached reached here, serveResolved, rawSilent (Bool.eq_true_of_not_eq_false kind)] at head
    contradiction
  · rintro ⟨kind, ends⟩
    obtain ⟨fuel, enough⟩ := earlierEnd errorText ends
    obtain ⟨response, answer⟩ := alwaysAnswers service incoming.request
    have run := httpServed errorText kind
      ((awaitedReady (.inl refused)).trans (congrArg some answer))
    have reached : ∀ more, streamCalls errorText service closed accepted i (fuel + more) =
        (serveResponse incoming.stream response (fuel + more)).calls := by
      intro more
      rw [streamReached (enough (fuel + more) (Nat.le_add_right _ _)) here, serveResolved, run]
    refine ⟨response, answer, ⟨fuel + 0, ?_⟩, ?_, ?_⟩
    · rw [reached]
      exact headFirst incoming.stream response (fuel + 0)
    · intro n takes
      refine ⟨fuel + n, ?_⟩
      rw [reached, headSent takes.head, Nat.add_comm]
      refine List.cons_prefix_cons.mpr ⟨rfl, ?_⟩
      exact (drainTakes takes.opened takes.data fuel).trans (bodyStarts incoming.stream response.body (n + fuel))
    · intro n sent ends delivered
      refine ⟨fuel + (n + 1), ?_⟩
      rw [reached, headSent sent, show fuel + (n + 1) = n + (fuel + 1) by omega, bodyWhole ends delivered]
      rfl

end

open HostRouting in
def idleService : H3Service sampleRoutes noFiles none := ⟨∅, ⟨.v4 0x7f000001, 40000⟩, none⟩

def nobodysPath : Request := { HostRouting.getPath "/" with uri := ⟨some "https", some "nobody.com", "/", none⟩ }

def plainRequest : Incoming := ⟨nobodysPath, none, openStream, true⟩

def sessionRequest : Incoming := ⟨{ nobodysPath with method := "CONNECT" }, some .webTransport, openStream, true⟩

theorem plainAnswered : Answered idleService plainRequest
    (streamCalls (fun _ => "") idleService (.ok ()) [.request plainRequest, .request sessionRequest, .request plainRequest] 2) := by
  have here : [Resolution.request plainRequest, .request sessionRequest, .request plainRequest][2]? =
      some (.request plainRequest) := rfl
  have refused : Refused idleService plainRequest := rfl
  refine (refusedAnsweredIff here refused).mpr ⟨rfl, ?_⟩
  have sent : Completes openStream (textBody "Host not found") := ⟨rfl, .inl ⟨⟨1, rfl, fun _ _ => rfl⟩, rfl⟩⟩
  intro j below earlier before
  rcases j with _ | _ | j
  · cases before
    refine ⟨.inl rfl, .inr ?_⟩
    intro response answer
    cases answer
    exact sent
  · cases before
    exact ⟨.inl rfl, .inl rfl⟩
  · omega

theorem sessionUnanswered : ¬ ∀ accepted i incoming, accepted[i]? = some (.request incoming) → Refused idleService incoming →
    Answered idleService incoming (streamCalls (fun _ => "") idleService (.ok ()) accepted i) := by
  intro claim
  obtain ⟨response, _, sent⟩ := claim [.request sessionRequest] 0 sessionRequest rfl rfl
  obtain ⟨fuel, head⟩ := sent.head
  rw [firstStream, serveResolved, rawSilent rfl] at head
  contradiction

end VetisTokio.H3Answers
