import Mathlib.Data.List.Forall2
import VetisTokio.HostRoute

/-! io::ReaderStream: any reader as a stream of chunks, each poll with a buffer of
its own. A poll of the reader is kept with the buffer it left behind. -/
namespace VetisTokio.IoStream
open HttpData HostRoute

def bufSize : Nat := 8192

inductive Poll (A : Type) where
  | ready (result : A)
  | pending
  deriving DecidableEq, Repr

inductive ErrorKind where
  | permissionDenied | interrupted | other
  deriving DecidableEq, Repr

structure Error where
  kind : ErrorKind
  text : String
  deriving DecidableEq, Repr

structure ReadBuf where
  storage : Bytes
  filledTo : Nat
  fits : filledTo ≤ storage.length
  deriving DecidableEq, Repr

def ReadBuf.new (storage : Bytes) : ReadBuf := ⟨storage, 0, Nat.zero_le _⟩

def ReadBuf.filled (buf : ReadBuf) : Bytes := buf.storage.take buf.filledTo

def ReadBuf.capacity (buf : ReadBuf) : Nat := buf.storage.length

structure ReadPoll (R : Type) where
  outcome : Poll (Except Error Unit)
  reader : R
  buf : ReadBuf

/- A reader writes into the storage it is given, and fills nothing when it is pending or fails. -/
class AsyncRead (R : Type) where
  pollRead : R → ReadBuf → ReadPoll R
  capacity : ∀ reader buf, (pollRead reader buf).buf.capacity = buf.capacity
  quiet : ∀ reader buf, (pollRead reader buf).outcome ≠ .ready (.ok ()) →
    (pollRead reader buf).buf.filled = buf.filled

structure ReaderStream (R : Type) where
  reader : R

abbrev StreamPoll := Poll (Option (Except Error Bytes))

def freshBuf : ReadBuf := .new (List.replicate bufSize 0)

section
variable {R : Type} [AsyncRead R]

def pollNext (stream : ReaderStream R) : StreamPoll × ReaderStream R :=
  let poll := AsyncRead.pollRead stream.reader freshBuf
  match poll.outcome with
  | .ready (.ok _) =>
    let filled := poll.buf.filled
    if filled.isEmpty then (.ready none, ⟨poll.reader⟩) else (.ready (some (.ok filled)), ⟨poll.reader⟩)
  | .ready (.error error) => (.ready (some (.error ⟨.other, error.text⟩)), ⟨poll.reader⟩)
  | .pending => (.pending, ⟨poll.reader⟩)

def polls : Nat → ReaderStream R → List StreamPoll
  | 0, _ => []
  | n + 1, stream => (pollNext stream).1 :: polls n (pollNext stream).2

def reads : Nat → R → List (ReadPoll R)
  | 0, _ => []
  | n + 1, reader =>
    AsyncRead.pollRead reader freshBuf :: reads n (AsyncRead.pollRead reader freshBuf).reader

end

def chunkOf : StreamPoll → Option Bytes
  | .ready (some (.ok bytes)) => some bytes
  | _ => none

def chunks (outs : List StreamPoll) : List Bytes := outs.filterMap chunkOf

def produced {R : Type} (read : ReadPoll R) : Bytes := read.buf.filled

def itemOf : StreamPoll → Option (Option (Except Error Bytes))
  | .ready item => some item
  | .pending => none

def resultOf {R : Type} (read : ReadPoll R) : Option (Except String Bytes) :=
  match read.outcome with
  | .ready (.ok _) => some (.ok (produced read))
  | .ready (.error error) => some (.error error.text)
  | .pending => none

def framed : Option (Except Error Bytes) → Option (Except String Frame)
  | some (.ok bytes) => some (.ok (.data bytes))
  | some (.error error) => some (.error error.text)
  | none => none

def bodyItem (result : Except String Bytes) : Option (Except String Frame) := readerStream (fun _ => result) 0

section
variable {R : Type} {read : ReadPoll R} {out : StreamPoll}

structure Delivers (read : ReadPoll R) (out : StreamPoll) : Prop where
  pending : out = .pending ↔ read.outcome = .pending
  unread : out = .pending → produced read = []
  ended : out = .ready none ↔ read.outcome = .ready (.ok ()) ∧ produced read = []
  failed : ∀ error, out = .ready (some (.error error)) ↔
    ∃ cause, read.outcome = .ready (.error cause) ∧ error = ⟨.other, cause.text⟩
  chunk : ∀ bytes, out = .ready (some (.ok bytes)) ↔
    read.outcome = .ready (.ok ()) ∧ produced read = bytes ∧ bytes ≠ []

inductive Polled (read : ReadPoll R) : StreamPoll → Prop where
  | ended : read.outcome = .ready (.ok ()) → produced read = [] → Polled read (.ready none)
  | chunk : read.outcome = .ready (.ok ()) → produced read ≠ [] → Polled read (.ready (some (.ok (produced read))))
  | failed {error} : read.outcome = .ready (.error error) → produced read = [] →
      Polled read (.ready (some (.error ⟨.other, error.text⟩)))
  | pending : read.outcome = .pending → produced read = [] → Polled read .pending

theorem polledDelivers (polled : Polled read out) : Delivers read out := by
  cases polled with
  | ended outcome nothing =>
    exact ⟨by simp [outcome], by simp, by simp [outcome, nothing], by simp [outcome], by simp [outcome, nothing]⟩
  | chunk outcome something =>
    refine ⟨by simp [outcome], by simp, by simp [something], by simp [outcome], fun bytes => ?_⟩
    simp only [outcome, Poll.ready.injEq, Option.some.injEq, Except.ok.injEq, true_and]
    exact ⟨fun same => ⟨same, same ▸ something⟩, fun both => both.1⟩
  | failed outcome nothing =>
    refine ⟨by simp [outcome], by simp, by simp [outcome], fun failed => ?_, by simp [outcome]⟩
    simp only [outcome, Poll.ready.injEq, Option.some.injEq, Except.error.injEq, exists_eq_left', eq_comm]
  | pending outcome nothing =>
    exact ⟨by simp [outcome], fun _ => nothing, by simp [outcome], by simp [outcome], by simp [outcome]⟩

theorem polledChunk (polled : Polled read out) : (chunkOf out).getD [] = produced read := by
  cases polled with
  | ended outcome nothing => exact nothing.symm
  | chunk outcome something => rfl
  | failed outcome nothing => exact nothing.symm
  | pending outcome nothing => exact nothing.symm

theorem polledItem (polled : Polled read out) :
    (itemOf out).map framed = (resultOf read).map bodyItem := by
  cases polled with
  | ended outcome nothing => simp [itemOf, framed, resultOf, outcome, nothing, bodyItem, readerStream]
  | chunk outcome something =>
    obtain ⟨b, rest, filled⟩ := List.exists_cons_of_ne_nil something
    simp [itemOf, framed, resultOf, outcome, filled, bodyItem, readerStream]
  | failed outcome nothing => simp [itemOf, framed, resultOf, outcome, bodyItem, readerStream]
  | pending outcome nothing => simp [itemOf, resultOf, outcome]

end

section
variable {R : Type} [AsyncRead R]

theorem freshEmpty : freshBuf.filled = [] := rfl

theorem freshCapacity : freshBuf.capacity = bufSize := List.length_replicate

theorem producedBound (reader : R) : (produced (AsyncRead.pollRead reader freshBuf)).length ≤ bufSize := by
  have capacity := AsyncRead.capacity reader freshBuf
  rw [freshCapacity] at capacity
  rw [produced, ReadBuf.filled, List.length_take]
  exact (Nat.min_le_right _ _).trans (Nat.le_of_eq capacity)

theorem pollReader (stream : ReaderStream R) :
    (pollNext stream).2 = ⟨(AsyncRead.pollRead stream.reader freshBuf).reader⟩ := by
  unfold pollNext
  dsimp only
  split
  · split <;> rfl
  · rfl
  · rfl

theorem pollSource (stream : ReaderStream R) :
    Polled (AsyncRead.pollRead stream.reader freshBuf) (pollNext stream).1 := by
  have quiet := AsyncRead.quiet stream.reader freshBuf
  rw [freshEmpty] at quiet
  unfold pollNext
  dsimp only
  split
  · rename_i outcome
    split
    · rename_i empty
      exact .ended outcome (List.isEmpty_iff.mp empty)
    · rename_i some
      exact .chunk outcome (mt List.isEmpty_iff.mpr some)
  · rename_i error outcome
    exact .failed outcome (quiet (by simp [outcome]))
  · rename_i outcome
    exact .pending outcome (quiet (by simp [outcome]))

theorem pollsDeliver (n : Nat) (reader : R) : List.Forall₂ Delivers (reads n reader) (polls n ⟨reader⟩) := by
  induction n generalizing reader with
  | zero => exact .nil
  | succ n ih =>
    rw [reads, polls, pollReader]
    exact .cons (polledDelivers (pollSource ⟨reader⟩)) (ih _)

theorem chunksProduced (n : Nat) (reader : R) :
    (chunks (polls n ⟨reader⟩)).flatten = (reads n reader).flatMap produced := by
  induction n generalizing reader with
  | zero => rfl
  | succ n ih =>
    rw [reads, polls, pollReader, List.flatMap_cons, ← ih, ← polledChunk (pollSource ⟨reader⟩), chunks, List.filterMap_cons]
    cases chunkOf (pollNext ⟨reader⟩).1 <;> rfl

theorem polledSource (n : Nat) (reader : R) : ∀ out ∈ polls n ⟨reader⟩, ∃ other : R, out = (pollNext ⟨other⟩).1 := by
  induction n generalizing reader with
  | zero => simp [polls]
  | succ n ih =>
    intro out member
    rw [polls, pollReader] at member
    rcases List.mem_cons.mp member with rfl | later
    · exact ⟨reader, rfl⟩
    · exact ih _ out later

theorem chunksBounded (n : Nat) (reader : R) :
    ∀ chunk ∈ chunks (polls n ⟨reader⟩), chunk ≠ [] ∧ chunk.length ≤ bufSize := by
  intro chunk member
  obtain ⟨out, polled, given⟩ := List.mem_filterMap.mp member
  obtain ⟨other, rfl⟩ := polledSource n reader out polled
  have filled := polledChunk (pollSource (⟨other⟩ : ReaderStream R))
  rw [given, Option.getD_some] at filled
  have ready : (pollNext (⟨other⟩ : ReaderStream R)).1 = .ready (some (.ok chunk)) := by
    unfold chunkOf at given
    split at given <;> try contradiction
    rename_i same
    cases Option.some.inj given
    exact same
  refine ⟨(((polledDelivers (pollSource ⟨other⟩)).chunk chunk).mp ready).2.2, ?_⟩
  rw [filled]
  exact producedBound other

structure Delivered (n : Nat) (reader : R) : Prop where
  polled : List.Forall₂ Delivers (reads n reader) (polls n ⟨reader⟩)
  bounded : ∀ chunk ∈ chunks (polls n ⟨reader⟩), chunk ≠ [] ∧ chunk.length ≤ 8192
  whole : (chunks (polls n ⟨reader⟩)).flatten = (reads n reader).flatMap produced

theorem readerDelivered (n : Nat) (reader : R) : Delivered n reader :=
  ⟨pollsDeliver n reader, chunksBounded n reader, chunksProduced n reader⟩

theorem itemsOfResults (n : Nat) (reader : R) : ((polls n ⟨reader⟩).filterMap itemOf).map framed =
    ((reads n reader).filterMap resultOf).map bodyItem := by
  induction n generalizing reader with
  | zero => rfl
  | succ n ih =>
    have first := polledItem (pollSource (⟨reader⟩ : ReaderStream R))
    rw [reads, polls, pollReader, List.filterMap_cons, List.filterMap_cons]
    dsimp only at first ⊢
    cases polled : itemOf (pollNext (⟨reader⟩ : ReaderStream R)).1 with
    | none =>
      rw [polled] at first
      rw [Option.map_eq_none_iff.mp first.symm]
      exact ih _
    | some item =>
      rw [polled] at first
      obtain ⟨result, read, same⟩ := Option.map_eq_some_iff.mp first.symm
      rw [read, List.map_cons, List.map_cons, same]
      exact congrArg _ (ih _)

theorem bodyPolled {bodyReads : Nat → Except String Bytes} {n k : Nat} {reader : R} {item : Option (Except Error Bytes)}
    (same : ∀ k result, ((reads n reader).filterMap resultOf)[k]? = some result → bodyReads k = result)
    (polled : ((polls n ⟨reader⟩).filterMap itemOf)[k]? = some item) : framed item = readerStream bodyReads k := by
  have items := congrArg (fun list => list[k]?) (itemsOfResults n reader)
  simp only [List.getElem?_map, polled, Option.map_some] at items
  obtain ⟨result, read, made⟩ := Option.map_eq_some_iff.mp items.symm
  have given := same k result read
  rw [← made, bodyItem, readerStream, readerStream, given]

end

inductive Scripted where
  | pending
  | bytes (bytes : Bytes)
  | failed (error : Error)

def ReadBuf.put (buf : ReadBuf) (bytes : Bytes) : ReadBuf :=
  let taken := bytes.take (buf.capacity - buf.filledTo)
  ⟨buf.filled ++ taken ++ buf.storage.drop (buf.filledTo + taken.length), buf.filledTo + taken.length, by
    have fits := buf.fits
    simp [ReadBuf.filled]
    omega⟩

theorem putCapacity (buf : ReadBuf) (bytes : Bytes) : (buf.put bytes).capacity = buf.capacity := by
  have fits := buf.fits
  simp [ReadBuf.put, ReadBuf.capacity, ReadBuf.filled]
  omega

def Script := List Scripted

instance : AsyncRead Script where
  pollRead script buf :=
    match script with
    | [] => ⟨.ready (.ok ()), [], buf⟩
    | .pending :: rest => ⟨.pending, rest, buf⟩
    | .bytes bytes :: rest => ⟨.ready (.ok ()), rest, buf.put bytes⟩
    | .failed error :: rest => ⟨.ready (.error error), rest, buf⟩
  capacity script buf := by
    split <;> first | rfl | exact putCapacity _ _
  quiet script buf failed := by
    split at failed
    · contradiction
    · rfl
    · contradiction
    · rfl

end VetisTokio.IoStream
