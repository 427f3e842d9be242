import VetisTokio.DefaultHeaders
import VetisTokio.H3Streams
import VetisTokio.IoStream

/-! The file of a status page on its way to an HTTP/3 client: from the polls of its reader
through the stream of chunks and the body of the page to the calls on the stream of the
request. Polls that are pending and reads that fail lie between the chunks, and leave no
trace of them. -/
namespace VetisTokio.PageDelivery
open HttpData ConfigData HostModel HostRoute ServiceHttp IoStream H3Model H3Bodies H3Answers H3Streams Fuel

structure ExhaustsAfter {R : Type} [AsyncRead R] (reader : R) (m : Nat) : Prop where
  ended : (polls (m + 1) ⟨reader⟩)[m]? = some (.ready none)
  opened : .ready none ∉ polls m ⟨reader⟩

def ReadsAs {R : Type} [AsyncRead R] (bodyReads : Nat → Except String Bytes) (reader : R) (n : Nat) : Prop :=
  ∀ k result, ((reads n reader).filterMap resultOf)[k]? = some result → bodyReads k = result

def bytesOf : Option (Except Error Bytes) → Option Bytes
  | some (.ok bytes) => some bytes
  | _ => none

section
variable {R : Type} [AsyncRead R] {reader : R} {m : Nat} {body : HttpBody} {bodyReads : Nat → Except String Bytes}

theorem pollsLength (n : Nat) (stream : ReaderStream R) : (polls n stream).length = n := by
  induction n generalizing stream with
  | zero => rfl
  | succ n ih => rw [polls, List.length_cons, ih]

theorem pollsMore (n : Nat) (stream : ReaderStream R) : ∃ out, polls (n + 1) stream = polls n stream ++ [out] := by
  induction n generalizing stream with
  | zero => exact ⟨_, rfl⟩
  | succ n ih =>
    obtain ⟨out, more⟩ := ih (pollNext stream).2
    exact ⟨out, by rw [polls, more, polls, List.cons_append]⟩

theorem chunksOfItems (outs : List StreamPoll) : chunks outs = (outs.filterMap itemOf).filterMap bytesOf := by
  rw [chunks, List.filterMap_filterMap]
  refine List.filterMap_congr ?_
  intro out _
  cases out with
  | pending => rfl
  | ready item => rcases item with _ | ⟨_ | _⟩ <;> rfl

theorem itemReady {out : StreamPoll} {item : Option (Except Error Bytes)} (here : itemOf out = some item) :
    out = .ready item := by
  cases out with
  | pending => contradiction
  | ready own => rw [Option.some.inj here]

theorem framedEnd {item : Option (Except Error Bytes)} (ended : framed item = none) : item = none := by
  rcases item with _ | ⟨_ | _⟩ <;> first | rfl | contradiction

theorem framesOfItems {items : List (Option (Except Error Bytes))}
    (same : ∀ k item, items[k]? = some item → body k = framed item) : frames body items.length = items.filterMap bytesOf := by
  induction items generalizing body with
  | nil => rfl
  | cons item rest ih =>
    have first : body 0 = framed item := same 0 item rfl
    have tail : frames (later body) rest.length = rest.filterMap bytesOf := ih fun k => same (k + 1)
    rw [List.length_cons]
    rcases item with _ | ⟨error | bytes⟩
    · rw [frames, first, List.filterMap_cons_none rfl]
      exact tail
    · rw [framesSkipped (.inr ⟨error.text, first⟩), List.filterMap_cons_none rfl]
      exact tail
    · rw [framesData first, tail]
      rfl

theorem pageFrames (readsAs : ReadsAs bodyReads reader (m + 1)) (exhausts : ExhaustsAfter reader m) :
    ∃ n, EndsFirst (readerStream bodyReads) n ∧ frames (readerStream bodyReads) n = chunks (polls m ⟨reader⟩) := by
  have items : ∀ k item, ((polls (m + 1) ⟨reader⟩).filterMap itemOf)[k]? = some item →
      readerStream bodyReads k = framed item := by
    intro k item polled
    exact (bodyPolled readsAs polled).symm
  obtain ⟨out, more⟩ := pollsMore m (⟨reader⟩ : ReaderStream R)
  have last : out = .ready none := by
    have ended := exhausts.ended
    rw [more, List.getElem?_append_right (Nat.le_of_eq (pollsLength m _)), pollsLength, Nat.sub_self] at ended
    exact Option.some.inj ended
  rw [more, last, List.filterMap_append] at items
  refine ⟨((polls m ⟨reader⟩).filterMap itemOf).length, ⟨?_, ?_⟩, ?_⟩
  · exact items _ none (by rw [List.getElem?_append_right (Nat.le_refl _), Nat.sub_self]; rfl)
  · intro k below
    rw [items k _ (by rw [List.getElem?_append_left below, List.getElem?_eq_getElem below])]
    intro ended
    obtain ⟨out, polled, item⟩ := List.mem_filterMap.mp (List.getElem_mem below)
    rw [framedEnd ended] at item
    exact exhausts.opened (itemReady item ▸ polled)
  · rw [chunksOfItems]
    refine framesOfItems fun k item place => items k item ?_
    obtain ⟨below, _⟩ := List.getElem?_eq_some_iff.mp place
    rw [List.getElem?_append_left below, place]

end

section
variable {crates : RouteCrates} {files : HostFiles} {logger : Option Logger} {host : Host} {incoming : Incoming} {code : Nat}

/- What a host answers with the page of a status: a path with dots, one that leads
nowhere, and a handler whose error has a status. -/
inductive Paged (crates : RouteCrates) (logger : Option Logger) (host : Host) (incoming : Incoming) : Nat → Prop where
  | forbidden : containsDots incoming.request.uri.path = true → Paged crates logger host incoming StatusCode.forbidden
  | missing : containsDots incoming.request.uri.path = false →
      findPath crates host.paths incoming.request.uri.path = none → Paged crates logger host incoming StatusCode.notFound
  | failed {path error code} : containsDots incoming.request.uri.path = false →
      findPath crates host.paths incoming.request.uri.path = some path →
      path.handle incoming.request (hostContext host logger (targetPath path incoming.request.uri.path)) = .error error →
      errorStatus error = some code → incoming.returns = true → Paged crates logger host incoming code

structure RoutedToPage (crates : RouteCrates) (files : HostFiles) (logger : Option Logger) (host : Host) (incoming : Incoming)
    (code : Nat) : Prop where
  page : (route crates files logger host incoming.request).response =
    serveStatusPage crates files host (StatusCode.asU16 code)
  valid : StatusCode.fromU16 (StatusCode.asU16 code) = some code
  returns : (route crates files logger host incoming.request).calls = [] ∨ incoming.returns = true

theorem pagedRoute (paged : Paged crates logger host incoming code) :
    RoutedToPage crates files logger host incoming code := by
  cases paged with
  | forbidden dots => exact ⟨by simp [route, dots], rfl, .inl (dotsRefused dots).1⟩
  | missing plain nowhere =>
    exact ⟨by simp [route, plain, nowhere], rfl, .inl (missingRefused plain nowhere).1⟩
  | failed plain found fails mapped returns =>
    refine ⟨?_, errorStatusValid mapped, .inr returns⟩
    rw [foundHandled plain found]
    simp only [HandlerCall.outcome, fails, handled, mapped]

theorem pageServedAs {status : UInt16} {bodyReads : Nat → Except String Bytes} (valid : StatusCode.fromU16 status = some code)
    (page : statusPage files host.config status = some bodyReads) :
    serveStatusPage crates files host status = .ok ⟨code, crates.streamHeaders, readerStream bodyReads⟩ := by
  simp only [serveStatusPage, valid, page]

theorem defaultsKeep (crate : HttpCrate) (config : HostConfig) (response : Response) :
    (ServiceQuic.addDefaultHeaders crate config response).status = response.status ∧
      (ServiceQuic.addDefaultHeaders crate config response).body = response.body := by
  have one : ∀ response header, (ServiceQuic.addDefaultHeader crate response header).status = response.status ∧
      (ServiceQuic.addDefaultHeader crate response header).body = response.body := by
    intro response header
    unfold ServiceQuic.addDefaultHeader
    split
    · exact ⟨rfl, rfl⟩
    · split <;> exact ⟨rfl, rfl⟩
  unfold ServiceQuic.addDefaultHeaders
  cases config.defaultHeaders with
  | none => exact ⟨rfl, rfl⟩
  | some defaults =>
    dsimp only
    induction defaults generalizing response with
    | nil => exact ⟨rfl, rfl⟩
    | cons header rest ih =>
      obtain ⟨status, body⟩ := ih (ServiceQuic.addDefaultHeader crate response header)
      rw [List.foldl_cons, status, body]
      exact one response header

end

section
variable {crates : RouteCrates} {files : HostFiles} {logger : Option Logger} {errorText : VetisError → String}
  {service : H3Service crates files logger} {closed : Except String Unit} {host : Host} {incoming : Incoming}
  {accepted : List Resolution} {i code m : Nat} {name : String} {R : Type} [AsyncRead R] {reader : R}
  {bodyReads : Nat → Except String Bytes}

def pageResponse (crates : RouteCrates) (host : Host) (code : Nat) (bodyReads : Nat → Except String Bytes) : Response :=
  ServiceQuic.addDefaultHeaders crates.http host.config ⟨code, crates.streamHeaders, readerStream bodyReads⟩

theorem pageAnswer (named : incoming.request.uri.authority = some name) (found : service.hosts.lookup name = some host)
    (paged : Paged crates logger host incoming code)
    (page : statusPage files host.config (StatusCode.asU16 code) = some bodyReads) :
    awaited service incoming = some (.ok (pageResponse crates host code bodyReads)) := by
  have routed : RoutedToPage crates files logger host incoming code := pagedRoute paged
  have answer : answerOf service incoming.request =
      ⟨some (host, incoming.request), .ok (pageResponse crates host code bodyReads)⟩ := by
    have returned : @RuntimeHost.route (ServedHost crates files logger) _ host incoming.request =
        .ok ⟨code, crates.streamHeaders, readerStream bodyReads⟩ := routed.page.trans (pageServedAs routed.valid page)
    simp only [answerOf, ServiceQuic.HttpService.call, ServiceQuic.requestHostname, named, found,
      ServiceQuic.routedResponse, returned]
    rfl
  have returns : Refused service incoming ∨ incoming.returns = true := by
    refine routed.returns.imp ?_ id
    intro quiet
    simp only [Refused, handlerCalls, answer]
    exact quiet
  rw [awaitedReady returns, answer]

structure PageSent (crates : RouteCrates) (host : Host) (code : Nat) (bodyReads : Nat → Except String Bytes) (reader : R)
    (m : Nat) (calls : Nat → List StreamCall) : Prop where
  sent : ∃ enough, ∀ fuel, enough ≤ fuel → calls fuel =
    .sendResponse code (pageResponse crates host code bodyReads).headers ::
      (chunks (polls m ⟨reader⟩)).map .sendData ++ [.finish]
  whole : (chunks (polls m ⟨reader⟩)).flatten = (reads m reader).flatMap produced
  bounded : ∀ chunk ∈ chunks (polls m ⟨reader⟩), chunk ≠ [] ∧ chunk.length ≤ 8192

theorem pageDelivered (here : accepted[i]? = some (.request incoming)) (plain : isWebTransport incoming = false)
    (accepts : Accepts incoming.stream) (passed : ∀ j < i, ∀ earlier, accepted[j]? = some earlier → Passed service earlier)
    (named : incoming.request.uri.authority = some name) (found : service.hosts.lookup name = some host)
    (paged : Paged crates logger host incoming code)
    (page : statusPage files host.config (StatusCode.asU16 code) = some bodyReads) (readsAs : ReadsAs bodyReads reader (m + 1))
    (exhausts : ExhaustsAfter reader m) :
    PageSent crates host code bodyReads reader m (streamCalls errorText service closed accepted i) := by
  refine ⟨?_, chunksProduced m reader, chunksBounded m reader⟩
  obtain ⟨status, body⟩ := defaultsKeep crates.http host.config ⟨code, crates.streamHeaders, readerStream bodyReads⟩
  obtain ⟨n, ends, data⟩ := pageFrames readsAs exhausts
  have whole : EndsFirst (pageResponse crates host code bodyReads).body n := by
    rw [pageResponse, body]
    exact ends
  have served := servedFirst accepts whole 0
  obtain ⟨fuel, enough⟩ := earlierEnd errorText passed
  refine ⟨max fuel (n + 1), ?_⟩
  intro later more
  have run := httpServed errorText plain (pageAnswer named found paged page)
  have same := settledLater (responseSettled incoming.stream (pageResponse crates host code bodyReads))
    (by rw [served]; rfl) ((Nat.le_max_right fuel (n + 1)).trans more)
  rw [streamReached (enough later ((Nat.le_max_left fuel (n + 1)).trans more)) here, serveResolved, run, same, served, headOf]
  rw [show (pageResponse crates host code bodyReads).body = readerStream bodyReads from body, data,
    show (pageResponse crates host code bodyReads).status = code from status]

end

theorem putFresh {bytes : Bytes} (fits : bytes.length ≤ bufSize) : (freshBuf.put bytes).filled = bytes := by
  have room : bytes.take (freshBuf.capacity - freshBuf.filledTo) = bytes := by
    rw [freshCapacity]
    exact List.take_of_length_le fits
  have start : freshBuf.filledTo + bytes.length = bytes.length := Nat.zero_add _
  simp only [ReadBuf.put, room, ReadBuf.filled, start]
  exact List.take_left

def brokenFile : Script := [.pending, .bytes [0x68, 0x69], .failed ⟨.interrupted, "interrupted"⟩, .bytes [0x21]]

def brokenReads : Nat → Except String Bytes
  | 0 => .ok [0x68, 0x69]
  | 1 => .error "interrupted"
  | 2 => .ok [0x21]
  | _ => .ok []

theorem filledHi : (freshBuf.put [0x68, 0x69]).filled = [0x68, 0x69] := putFresh (by decide)

theorem filledMark : (freshBuf.put [0x21]).filled = [0x21] := putFresh (by decide)

theorem brokenExhausts : ExhaustsAfter brokenFile 4 :=
  ⟨by simp [polls, pollNext, AsyncRead.pollRead, brokenFile, filledHi, filledMark, freshEmpty],
    by simp [polls, pollNext, AsyncRead.pollRead, brokenFile, filledHi, filledMark]⟩

theorem brokenReadsAs : ReadsAs brokenReads brokenFile 5 := by
  intro k result place
  simp only [reads, AsyncRead.pollRead, brokenFile, List.filterMap_cons, List.filterMap_nil, resultOf, produced, filledHi,
    filledMark, freshEmpty] at place
  rcases k with _ | _ | _ | _ | k
  · exact Option.some.inj place
  · exact Option.some.inj place
  · exact Option.some.inj place
  · exact Option.some.inj place
  · contradiction

def pageService (reads : Nat → Except String Bytes) : H3Service HostRouting.sampleRoutes (pageFiles reads) none :=
  ⟨(∅ : AList (fun _ : String => Host)).insert "localhost" pageHost, ⟨.v4 0x7f000001, 40000⟩, none⟩

def missingPage : Incoming := ⟨{ HostRouting.getPath "/" with uri := ⟨none, some "localhost", "/", none⟩ }, none, openStream, true⟩

theorem brokenDelivered : PageSent HostRouting.sampleRoutes pageHost 404 brokenReads brokenFile 4
    (streamCalls (fun _ => "") (pageService brokenReads) (.ok ()) [.request missingPage] 0) :=
  pageDelivered rfl rfl openAccepts (fun j below => absurd below (Nat.not_lt_zero j)) rfl rfl (.missing rfl rfl) rfl
    brokenReadsAs brokenExhausts

end VetisTokio.PageDelivery
