import VetisTokio.Library.Fuel
import VetisTokio.HostRouting
import VetisTokio.H3Model

/-! The loop that sends a body: what it has sent after a number of items, when it comes
to an end, and what becomes of an item that is an error. -/
namespace VetisTokio.H3Bodies
open HttpData ConfigData HostModel HostRoute H3Model Fuel

def frames (body : HttpBody) : Nat → List Bytes
  | 0 => []
  | n + 1 =>
    match body 0 with
    | some (.ok (.data bytes)) => bytes :: frames (later body) n
    | _ => frames (later body) n

def behind {A : Type} (n : Nat) (items : Nat → A) : Nat → A := fun k => items (k + n)

def Over (served : Served) : Prop := served.result.isSome = true

def Finished (served : Served) : Prop := served.result = some (.ok ())

def Failed (served : Served) : Prop := ∃ error, served.result = some (.error error)

abbrev DataSends := Nat → Option (Except String Unit)

def Delivered (sendData : DataSends) (body : HttpBody) (n : Nat) : Prop :=
  ∀ k < (frames body n).length, sendData k = some (.ok ())

structure EndsFirst (body : HttpBody) (n : Nat) : Prop where
  ended : body n = none
  opened : ∀ k < n, body k ≠ none

def SendFails (sendData : DataSends) (body : HttpBody) : Prop :=
  ∃ n bytes text, (∀ k < n, body k ≠ none) ∧ body n = some (.ok (.data bytes)) ∧ Delivered sendData body n ∧
    sendData (frames body n).length = some (.error text)

section
variable {sendData : DataSends} {body : HttpBody} {n : Nat}

theorem drainEnd (ended : body 0 = none) (fuel : Nat) : drain sendData body (fuel + 1) = ⟨[], some (.ok ())⟩ := by
  rw [drain, ended]

theorem drainData {bytes : Bytes} (item : body 0 = some (.ok (.data bytes))) (sent : sendData 0 = some (.ok ()))
    (fuel : Nat) : drain sendData body (fuel + 1) =
      (drain (later sendData) (later body) fuel).after (.sendData bytes) := by
  rw [drain, item]
  simp only [sent]

theorem drainFailed {bytes : Bytes} {text : String} (item : body 0 = some (.ok (.data bytes)))
    (failed : sendData 0 = some (.error text)) (fuel : Nat) :
    drain sendData body (fuel + 1) = ⟨[.sendData bytes], some (.error (.worker text))⟩ := by
  rw [drain, item]
  simp only [failed]

theorem drainHeld {bytes : Bytes} (item : body 0 = some (.ok (.data bytes))) (held : sendData 0 = none) (fuel : Nat) :
    drain sendData body (fuel + 1) = ⟨[.sendData bytes], none⟩ := by
  rw [drain, item]
  simp only [held]

def Skipped (item : Option (Except String Frame)) : Prop :=
  (∃ headers, item = some (.ok (.trailers headers))) ∨ ∃ text, item = some (.error text)

theorem drainSkipped (item : Skipped (body 0)) (fuel : Nat) :
    drain sendData body (fuel + 1) = drain sendData (later body) fuel := by
  rcases item with ⟨headers, item⟩ | ⟨text, item⟩ <;> rw [drain, item]

theorem framesSkipped (item : Skipped (body 0)) (n : Nat) : frames body (n + 1) = frames (later body) n := by
  rcases item with ⟨headers, item⟩ | ⟨text, item⟩ <;> rw [frames, item]

theorem framesData {bytes : Bytes} (item : body 0 = some (.ok (.data bytes))) (n : Nat) :
    frames body (n + 1) = bytes :: frames (later body) n := by
  rw [frames, item]

theorem skippedOpen (item : Skipped (body 0)) : body 0 ≠ none := by
  rcases item with ⟨headers, item⟩ | ⟨text, item⟩ <;> simp [item]

theorem openLater (first : body 0 ≠ none) (opened : ∀ k < n, later body k ≠ none) : ∀ k < n + 1, body k ≠ none := by
  intro k below
  cases k with
  | zero => exact first
  | succ k => exact opened k (Nat.lt_of_succ_lt_succ below)

theorem openTail (opened : ∀ k < n + 1, body k ≠ none) : ∀ k < n, later body k ≠ none :=
  fun k below => opened (k + 1) (Nat.succ_lt_succ below)

theorem deliveredSkipped (item : Skipped (body 0)) :
    Delivered sendData body (n + 1) ↔ Delivered sendData (later body) n := by
  rw [Delivered, Delivered, framesSkipped item]

theorem deliveredData {bytes : Bytes} (item : body 0 = some (.ok (.data bytes))) :
    Delivered sendData body (n + 1) ↔ sendData 0 = some (.ok ()) ∧ Delivered (later sendData) (later body) n := by
  rw [Delivered, framesData item, List.length_cons]
  constructor
  · intro all
    exact ⟨all 0 (Nat.succ_pos _), fun k below => all (k + 1) (Nat.succ_lt_succ below)⟩
  · rintro ⟨first, rest⟩ k below
    cases k with
    | zero => exact first
    | succ k => exact rest k (Nat.lt_of_succ_lt_succ below)

theorem itemCases (body : HttpBody) : body 0 = none ∨ (∃ bytes, body 0 = some (.ok (.data bytes))) ∨ Skipped (body 0) := by
  cases item : body 0 with
  | none => exact .inl rfl
  | some result =>
    cases result with
    | error text => exact .inr (.inr (.inr ⟨text, rfl⟩))
    | ok frame =>
      cases frame with
      | data bytes => exact .inr (.inl ⟨bytes, rfl⟩)
      | trailers headers => exact .inr (.inr (.inl ⟨headers, rfl⟩))

theorem sendCases (sendData : DataSends) :
    sendData 0 = some (.ok ()) ∨ (∃ text, sendData 0 = some (.error text)) ∨ sendData 0 = none := by
  cases sendData 0 with
  | none => exact .inr (.inr rfl)
  | some result =>
    cases result with
    | ok done => exact .inl rfl
    | error text => exact .inr (.inl ⟨text, rfl⟩)

theorem drainSettled (sendData : DataSends) (body : HttpBody) : Settled Over (drain sendData body) := by
  constructor
  intro fuel stopped
  induction fuel generalizing sendData body with
  | zero => contradiction
  | succ fuel ih =>
    rcases itemCases body with none | ⟨bytes, item⟩ | item
    · rw [drainEnd none, drainEnd none]
    · rcases sendCases sendData with sent | ⟨text, failed⟩ | held
      · rw [drainData item sent] at stopped
        rw [drainData item sent, drainData item sent, ih _ _ stopped]
      · rw [drainFailed item failed, drainFailed item failed]
      · rw [drainHeld item held, drainHeld item held]
    · rw [drainSkipped item] at stopped
      rw [drainSkipped item, drainSkipped item, ih _ _ stopped]

theorem finishedSource {fuel : Nat} (finished : Finished (drain sendData body fuel)) :
    ∃ n, body n = none ∧ Delivered sendData body n := by
  induction fuel generalizing sendData body with
  | zero => contradiction
  | succ fuel ih =>
    rcases itemCases body with none | ⟨bytes, item⟩ | item
    · exact ⟨0, none, fun k below => absurd below (Nat.not_lt_zero k)⟩
    · rcases sendCases sendData with sent | ⟨text, failed⟩ | held
      · rw [drainData item sent] at finished
        obtain ⟨n, ended, delivered⟩ := ih finished
        exact ⟨n + 1, ended, (deliveredData item).mpr ⟨sent, delivered⟩⟩
      · rw [drainFailed item failed] at finished
        cases Option.some.inj finished
      · rw [drainHeld item held] at finished
        contradiction
    · rw [drainSkipped item] at finished
      obtain ⟨n, ended, delivered⟩ := ih finished
      exact ⟨n + 1, ended, (deliveredSkipped item).mpr delivered⟩

theorem failedSource {fuel : Nat} (failed : Failed (drain sendData body fuel)) : SendFails sendData body := by
  induction fuel generalizing sendData body with
  | zero =>
    obtain ⟨error, failed⟩ := failed
    contradiction
  | succ fuel ih =>
    rcases itemCases body with none | ⟨bytes, item⟩ | item
    · obtain ⟨error, failed⟩ := failed
      rw [drainEnd none] at failed
      cases Option.some.inj failed
    · rcases sendCases sendData with sent | ⟨text, refused⟩ | held
      · rw [drainData item sent] at failed
        obtain ⟨n, other, text, opened, last, delivered, refused⟩ := ih failed
        refine ⟨n + 1, other, text, openLater (by simp [item]) opened, last, (deliveredData item).mpr ⟨sent, delivered⟩, ?_⟩
        rw [framesData item]
        exact refused
      · exact ⟨0, bytes, text, fun k below => absurd below (Nat.not_lt_zero k), item,
          fun k below => absurd below (Nat.not_lt_zero k), refused⟩
      · obtain ⟨error, failed⟩ := failed
        rw [drainHeld item held] at failed
        contradiction
    · rw [drainSkipped item] at failed
      obtain ⟨n, other, text, opened, last, delivered, refused⟩ := ih failed
      refine ⟨n + 1, other, text, openLater (skippedOpen item) opened, last, (deliveredSkipped item).mpr delivered, ?_⟩
      rw [framesSkipped item]
      exact refused

theorem drainFront (opened : ∀ k < n, body k ≠ none) (delivered : Delivered sendData body n) (fuel : Nat) :
    drain sendData body (n + fuel) =
      ⟨(frames body n).map .sendData ++ (drain (behind (frames body n).length sendData) (behind n body) fuel).calls,
        (drain (behind (frames body n).length sendData) (behind n body) fuel).result⟩ := by
  induction n generalizing sendData body with
  | zero => rw [Nat.zero_add]; rfl
  | succ n ih =>
    rw [Nat.succ_add_eq_add_succ, Nat.add_succ]
    rcases itemCases body with none | ⟨bytes, item⟩ | item
    · exact absurd none (opened 0 (Nat.succ_pos n))
    · obtain ⟨sent, rest⟩ := (deliveredData item).mp delivered
      rw [drainData item sent, framesData item]
      exact (congrArg (Served.after (.sendData bytes)) (ih (openTail opened) rest)).trans rfl
    · rw [drainSkipped item, framesSkipped item]
      exact ih (openTail opened) ((deliveredSkipped item).mp delivered)

theorem drainWhole (ends : EndsFirst body n) (delivered : Delivered sendData body n) (more : Nat) :
    drain sendData body (n + (more + 1)) = ⟨(frames body n).map .sendData, some (.ok ())⟩ := by
  have last : behind n body 0 = none := by rw [behind, Nat.zero_add, ends.ended]
  rw [drainFront ends.opened delivered, drainEnd last, List.append_nil]

theorem drainRefused {bytes : Bytes} {text : String} (opened : ∀ k < n, body k ≠ none)
    (last : body n = some (.ok (.data bytes))) (delivered : Delivered sendData body n)
    (refused : sendData (frames body n).length = some (.error text)) : Failed (drain sendData body (n + 1)) := by
  have item : behind n body 0 = some (.ok (.data bytes)) := by rw [behind, Nat.zero_add, last]
  have failed : behind (frames body n).length sendData 0 = some (.error text) := by rw [behind, Nat.zero_add, refused]
  rw [drainFront opened delivered, drainFailed item failed]
  exact ⟨_, rfl⟩

theorem drainTakes (opened : ∀ k < n, body k ≠ none)
    (taken : ∀ k, k + 1 < (frames body n).length → sendData k = some (.ok ())) (more : Nat) :
    (frames body n).map .sendData <+: (drain sendData body (n + more)).calls := by
  induction n generalizing sendData body with
  | zero => exact List.nil_prefix
  | succ n ih =>
    rw [show n + 1 + more = n + more + 1 by omega]
    rcases itemCases body with none | ⟨bytes, item⟩ | item
    · exact absurd none (opened 0 (Nat.succ_pos n))
    · rw [framesData item] at taken
      have rest : ∀ k, k + 1 < (frames (later body) n).length → later sendData k = some (.ok ()) :=
        fun k below => taken (k + 1) (Nat.succ_lt_succ below)
      rw [framesData item, List.map_cons]
      rcases sendCases sendData with sent | refused
      · rw [drainData item sent]
        exact List.cons_prefix_cons.mpr ⟨rfl, ih (openTail opened) rest⟩
      · have only : frames (later body) n = [] := by
          refine List.length_eq_zero_iff.mp (Nat.eq_zero_of_not_pos fun many => ?_)
          have sent := taken 0 (Nat.succ_lt_succ many)
          rcases refused with ⟨text, failed⟩ | held
          · rw [sent] at failed
            cases Option.some.inj failed
          · rw [sent] at held
            contradiction
        rw [only]
        rcases refused with ⟨text, failed⟩ | held
        · rw [drainFailed item failed]
          exact List.prefix_rfl
        · rw [drainHeld item held]
          exact List.prefix_rfl
    · rw [framesSkipped item] at taken
      rw [drainSkipped item, framesSkipped item]
      exact ih (openTail opened) taken

theorem overCases {served : Served} : Over served ↔ Finished served ∨ Failed served := by
  unfold Over Finished Failed
  rcases served.result with _ | ⟨error | done⟩ <;> simp

theorem endsFirst (ended : body n = none) (delivered : Delivered sendData body n) :
    ∃ m, EndsFirst body m ∧ Delivered sendData body m := by
  induction n generalizing sendData body with
  | zero => exact ⟨0, ⟨ended, fun k below => absurd below (Nat.not_lt_zero k)⟩, delivered⟩
  | succ n ih =>
    rcases itemCases body with none | ⟨bytes, item⟩ | item
    · exact ⟨0, ⟨none, fun k below => absurd below (Nat.not_lt_zero k)⟩, fun k below => absurd below (Nat.not_lt_zero k)⟩
    · obtain ⟨sent, rest⟩ := (deliveredData item).mp delivered
      obtain ⟨m, first, through⟩ := @ih (later sendData) (later body) ended rest
      exact ⟨m + 1, ⟨first.ended, openLater (by simp [item]) first.opened⟩, (deliveredData item).mpr ⟨sent, through⟩⟩
    · obtain ⟨m, first, through⟩ := @ih sendData (later body) ended ((deliveredSkipped item).mp delivered)
      exact ⟨m + 1, ⟨first.ended, openLater (skippedOpen item) first.opened⟩, (deliveredSkipped item).mpr through⟩

theorem finishedIff : Ends Finished (drain sendData body) ↔ ∃ n, body n = none ∧ Delivered sendData body n := by
  constructor
  · rintro ⟨fuel, finished⟩
    exact finishedSource finished
  · rintro ⟨n, ended, delivered⟩
    obtain ⟨m, first, through⟩ := endsFirst ended delivered
    exact ⟨m + 1, by rw [Finished, drainWhole first through 0]⟩

theorem failedIff : Ends Failed (drain sendData body) ↔ SendFails sendData body := by
  constructor
  · rintro ⟨fuel, failed⟩
    exact failedSource failed
  · rintro ⟨n, bytes, text, opened, last, delivered, refused⟩
    exact ⟨n + 1, drainRefused opened last delivered refused⟩

theorem drainEndsIff : Ends Over (drain sendData body) ↔
    (∃ n, body n = none ∧ Delivered sendData body n) ∨ SendFails sendData body := by
  rw [← finishedIff, ← failedIff]
  simp only [Ends, overCases, exists_or]

end

def IsFrame (item : Option (Except String Frame)) : Prop := ∃ frame, item = some (.ok frame)

structure EndsAt (body : HttpBody) (n : Nat) : Prop where
  before : ∀ k < n, IsFrame (body k)
  ended : body n = none

structure BreaksAt (body : HttpBody) (n : Nat) : Prop where
  before : ∀ k < n, IsFrame (body k)
  broken : ∃ text, body n = some (.error text)

/- The data before the first error and no other; the stream is finished behind the
last item of a body without one, and an error is passed on. -/
structure Untruncated (head : StreamCall) (body : HttpBody) (run : Nat → Served) : Prop where
  ended : ∀ n, EndsAt body n → ∃ fuel,
    run fuel = ⟨head :: (frames body n).map .sendData ++ [.finish], some (.ok ())⟩
  broken : ∀ n, BreaksAt body n → ∃ fuel error,
    run fuel = ⟨head :: (frames body n).map .sendData, some (.error error)⟩
  endless : (∀ n, IsFrame (body n)) → ∀ fuel, run fuel = ⟨head :: (frames body fuel).map .sendData, none⟩

structure Accepts (stream : SendStream) : Prop where
  response : stream.sendResponse = some (.ok ())
  data : ∀ n, stream.sendData n = some (.ok ())
  finish : stream.finish = some (.ok ())

section
variable {errorText : VetisError → String} {stream : SendStream} {response : Response}

def headOf (response : Response) : StreamCall := .sendResponse response.status response.headers

theorem frameOpen {item : Option (Except String Frame)} (frame : IsFrame item) : item ≠ none := by
  obtain ⟨frame, rfl⟩ := frame
  exact Option.some_ne_none _

theorem acceptsAll (accepts : Accepts stream) (body : HttpBody) (n : Nat) : Delivered stream.sendData body n :=
  fun k _ => accepts.data k

theorem headSent (sent : stream.sendResponse.isSome = true) (fuel : Nat) :
    serveResponse stream response fuel = (serveBody stream response.body fuel).after (headOf response) := by
  obtain ⟨result, sent⟩ := Option.isSome_iff_exists.mp sent
  simp only [serveResponse, sent, headOf]

theorem headHeld (held : stream.sendResponse = none) (fuel : Nat) :
    serveResponse stream response fuel = ⟨[headOf response], none⟩ := by
  simp only [serveResponse, held, headOf]

theorem acceptsHead (accepts : Accepts stream) : stream.sendResponse.isSome = true := by rw [accepts.response]; rfl

theorem bodyWhole {n : Nat} (ends : EndsFirst response.body n) (delivered : Delivered stream.sendData response.body n)
    (more : Nat) : serveBody stream response.body (n + (more + 1)) =
      ⟨(frames response.body n).map .sendData ++ [.finish], stream.finish.map workerResult⟩ := by
  simp only [serveBody, drainWhole ends delivered more]

theorem servedFirst {n : Nat} (accepts : Accepts stream) (ends : EndsFirst response.body n) (more : Nat) :
    serveResponse stream response (n + (more + 1)) =
      ⟨headOf response :: (frames response.body n).map .sendData ++ [.finish], some (.ok ())⟩ := by
  rw [headSent (acceptsHead accepts), bodyWhole ends (acceptsAll accepts _ _), accepts.finish]
  rfl

theorem servedOnly (accepts : Accepts stream) (fuel : Nat) (error : VetisError) :
    (serveResponse stream response fuel).result ≠ some (.error error) := by
  rw [headSent (acceptsHead accepts)]
  simp only [Served.after, serveBody, accepts.finish]
  split
  · intro failed
    cases Option.some.inj failed
  · rename_i result
    intro failed
    obtain ⟨n, bytes, text, _, _, _, refused⟩ := failedSource ⟨error, failed⟩
    rw [accepts.data] at refused
    cases Option.some.inj refused

theorem untruncatedIff (response : Response) (accepts : Accepts stream) :
    Untruncated (headOf response) response.body (serveHttp errorText stream (some (.ok response))) ↔
      ∀ n, ¬ BreaksAt response.body n := by
  constructor
  · intro untruncated n breaks
    obtain ⟨fuel, error, served⟩ := untruncated.broken n breaks
    exact servedOnly accepts fuel error (congrArg Served.result served)
  · intro whole
    refine ⟨fun n ends => ⟨n + 1, servedFirst accepts ⟨ends.ended, fun k below => frameOpen (ends.before k below)⟩ 0⟩,
      fun n breaks => absurd breaks (whole n), ?_⟩
    intro endless fuel
    have front := drainFront (fun k (_ : k < fuel) => frameOpen (endless k)) (acceptsAll accepts response.body fuel) 0
    rw [Nat.add_zero, drain, List.append_nil] at front
    exact (headSent (acceptsHead accepts) fuel).trans (by simp only [serveBody, front]; rfl)

end

def openStream : SendStream := ⟨some (.ok ()), fun _ => some (.ok ()), some (.ok ())⟩

theorem openAccepts : Accepts openStream := ⟨rfl, fun _ => rfl, rfl⟩

def brokenBody : HttpBody
  | 0 => some (.ok (.data [0x68, 0x69]))
  | 1 => some (.error "read failed")
  | _ => none

theorem helloUntruncated : Untruncated (.sendResponse 200 []) (textBody "hello")
    (serveHttp (fun _ => "") openStream (some (.ok ⟨200, [], textBody "hello"⟩))) := by
  refine (untruncatedIff ⟨200, [], textBody "hello"⟩ openAccepts).mpr ?_
  rintro n ⟨_, text, broken⟩
  cases n with
  | zero => cases Option.some.inj broken
  | succ n => contradiction

theorem brokenFinished : ¬ ∀ body, Untruncated (.sendResponse 200 []) body
    (serveHttp (fun _ => "") openStream (some (.ok ⟨200, [], body⟩))) := by
  intro claim
  have breaks : BreaksAt brokenBody 1 := by
    refine ⟨?_, "read failed", rfl⟩
    intro k below
    cases Nat.lt_one_iff.mp below
    exact ⟨_, rfl⟩
  obtain ⟨fuel, error, served⟩ := (claim brokenBody).broken 1 breaks
  exact servedOnly openAccepts fuel error (congrArg Served.result served)

def SettlesReading (reads : Nat → Except String Bytes) : Prop :=
  ∃ n, (∀ k, n ≤ k → reads k = .ok []) ∨ ∀ k, n ≤ k → ∃ text, reads k = .error text

section
variable {crates : RouteCrates} {files : HostFiles} {host : Host} {status : UInt16} {response : Response}
  {reads : Nat → Except String Bytes} {stream : SendStream}

theorem pageBody (page : statusPage files host.config status = some reads)
    (served : serveStatusPage crates files host status = .ok response) : response.body = readerStream reads := by
  unfold serveStatusPage at served
  split at served <;> try contradiction
  rw [page] at served
  cases Except.ok.inj served
  rfl

theorem readerEnds (n : Nat) : readerStream reads n = none ↔ reads n = .ok [] := by
  unfold readerStream
  cases reads n with
  | error text => simp
  | ok bytes => cases bytes <;> simp

theorem pageDrainedIff (page : statusPage files host.config status = some reads)
    (served : serveStatusPage crates files host status = .ok response) (accepts : Accepts stream) :
    Ends Over (drain stream.sendData response.body) ↔ ∃ n, reads n = .ok [] := by
  rw [pageBody page served, drainEndsIff]
  constructor
  · rintro (⟨n, ended, _⟩ | ⟨n, bytes, text, _, _, _, refused⟩)
    · exact ⟨n, (readerEnds n).mp ended⟩
    · rw [accepts.data] at refused
      cases Option.some.inj refused
  · rintro ⟨n, ended⟩
    exact .inl ⟨n, (readerEnds n).mpr ended, acceptsAll accepts _ n⟩

end

def pageFiles (reads : Nat → Except String Bytes) : HostFiles := ⟨⟨fun _ => true, fun _ => .ok []⟩, fun _ => .ok reads⟩

def pageHost : Host where
  config :=
    { hostname := "localhost", bindAddresses := [(.v4 0, 443)], protos := [.http3], rootDirectory := some "/srv",
      statusPages := some ((∅ : AList (fun _ : UInt16 => String)).insert 404 "missing") }
  paths := ∅
  tls := none

def fileReads : Nat → Except String Bytes
  | 0 => .ok [0x68, 0x69]
  | _ => .ok []

def directoryReads : Nat → Except String Bytes := fun _ => .error "Is a directory (os error 21)"

theorem pageOpened (reads : Nat → Except String Bytes) :
    statusPage (pageFiles reads) pageHost.config 404 = some reads := rfl

theorem pageServed (reads : Nat → Except String Bytes) :
    serveStatusPage HostRouting.sampleRoutes (pageFiles reads) pageHost 404 = .ok ⟨404, [], readerStream reads⟩ := rfl

theorem fileDrained : Ends Over (drain openStream.sendData (readerStream fileReads)) :=
  (pageDrainedIff (pageOpened fileReads) (pageServed fileReads) openAccepts).mpr ⟨1, rfl⟩

theorem directoryHangs : ¬ ∀ reads response, SettlesReading reads →
    serveStatusPage HostRouting.sampleRoutes (pageFiles reads) pageHost 404 = .ok response →
      Ends Over (drain openStream.sendData response.body) := by
  intro claim
  have ends := claim directoryReads _ ⟨0, .inr fun k _ => ⟨_, rfl⟩⟩ (pageServed directoryReads)
  rcases drainEndsIff.mp ends with ⟨n, ended, _⟩ | ⟨n, bytes, text, _, _, _, refused⟩
  · contradiction
  · cases Option.some.inj refused

end VetisTokio.H3Bodies
