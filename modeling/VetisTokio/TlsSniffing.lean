import VetisTokio.WorkerModel

/-! The branch that `TcpWorker::run` takes for a stream, against the number of bytes
that had arrived when it looked. The buffer it looks at is zero where none had. -/
namespace VetisTokio.TlsSniffing
open HttpData ConfigData SignalChannel WorkerModel Runs

structure Delivered (bytes : Bytes) (seen : Nat) (stream : TcpStream) : Prop where
  some : 1 ≤ seen
  peek : stream.peek = .ok (bytes.take seen)

def branch (w : Worker TcpStream) : Option Bool := do
  let next ← TcpWorker.step w .sniff
  let task ← next.tasks[w.tasks.length]?
  some (decide (task.phase = .handshaking))

def beginsTls (bytes : Bytes) : Prop := [0x16, 0x03] <+: bytes

theorem sniffSource {w : Worker TcpStream} {stream : TcpStream} {clientAddr : SocketAddr} {seen : Bytes}
    (sniffing : w.loop = .sniffing stream clientAddr) (peek : stream.peek = .ok seen) :
    TcpWorker.step w .sniff = some (w.spawn stream clientAddr (isTls (peekBuffer seen))) := by
  simp only [TcpWorker.step, Worker.step, sniffing, TcpWorker.protocol, TcpWorker.handshakes, peek]

theorem branchOfPeek {w : Worker TcpStream} {stream : TcpStream} {clientAddr : SocketAddr} {seen : Bytes}
    (sniffing : w.loop = .sniffing stream clientAddr) (peek : stream.peek = .ok seen) :
    branch w = some (isTls (peekBuffer seen)) := by
  simp only [branch, sniffSource sniffing peek, Worker.spawn, bind, Option.bind_some]
  rw [List.getElem?_concat_length, Option.bind_some]
  cases isTls (peekBuffer seen) <;> rfl

theorem seenTlsIff {bytes : Bytes} {seen : Nat} (some : 1 ≤ seen) (long : 2 ≤ bytes.length) :
    isTls (peekBuffer (bytes.take seen)) = true ↔ beginsTls bytes ∧ 2 ≤ seen := by
  match bytes, long with
  | a :: b :: rest, _ =>
    match seen, some with
    | 1, _ => simp [isTls, peekBuffer, beginsTls]
    | n + 2, _ => simp [isTls, peekBuffer, beginsTls]

section
variable {bytes : Bytes} {n m : Nat} {first second : TcpStream} {w other : Worker TcpStream}
  {clientAddr otherAddr : SocketAddr}

theorem branchIff (sniffing : w.loop = .sniffing first clientAddr) (delivered : Delivered bytes n first)
    (long : 2 ≤ bytes.length) : branch w = some true ↔ beginsTls bytes ∧ 2 ≤ n := by
  rw [branchOfPeek sniffing delivered.peek, Option.some.injEq, seenTlsIff delivered.some long]

theorem unsegmentedIff (sniffing : w.loop = .sniffing first clientAddr) (delivered : Delivered bytes n first)
    (sniffingToo : other.loop = .sniffing second otherAddr) (deliveredToo : Delivered bytes m second)
    (long : 2 ≤ bytes.length) :
    ((beginsTls bytes → branch w = some true) ∧ branch w = branch other) ↔ (beginsTls bytes → 2 ≤ n ∧ 2 ≤ m) := by
  have one := branchIff sniffing delivered long
  have two := branchIff sniffingToo deliveredToo long
  constructor
  · intro ⟨handed, same⟩ begins
    have taken := handed begins
    exact ⟨(one.mp taken).2, (two.mp (same ▸ taken)).2⟩
  · intro enough
    refine ⟨fun begins => one.mpr ⟨begins, (enough begins).1⟩, ?_⟩
    by_cases begins : beginsTls bytes
    · rw [one.mpr ⟨begins, (enough begins).1⟩, two.mpr ⟨begins, (enough begins).2⟩]
    · have plain := mt (fun taken => (one.mp taken).1) begins
      have plainToo := mt (fun taken => (two.mp taken).1) begins
      rw [branchOfPeek sniffing delivered.peek] at plain ⊢
      rw [branchOfPeek sniffingToo deliveredToo.peek] at plainToo ⊢
      rw [Option.some.injEq, Bool.not_eq_true] at plain plainToo
      rw [plain, plainToo]

end

def hello : Bytes := [0x16, 0x03, 0x01]

def helloSeen (n : Nat) : TcpStream := ⟨0, .ok ⟨.v4 0x7f000001, 40000⟩, .ok (hello.take n)⟩

def sniffed (n : Nat) : Option (Worker TcpStream) := run TcpWorker.step Worker.new [.poll, .recv (helloSeen n)]

theorem helloDelivered {n : Nat} (some : 1 ≤ n) : Delivered hello n (helloSeen n) := ⟨some, rfl⟩

theorem helloHanded : ∃ w other, sniffed 2 = some w ∧ sniffed 3 = some other ∧
    ((beginsTls hello → branch w = some true) ∧ branch w = branch other) :=
  ⟨_, _, rfl, rfl, (unsegmentedIff rfl (helloDelivered (by decide)) rfl (helloDelivered (by decide)) (by decide)).mpr
    (fun _ => by decide)⟩

theorem firstByteAlone : ¬ ∀ n w, 1 ≤ n → sniffed n = some w → beginsTls hello → branch w = some true := by
  intro claim
  have taken := claim 1 _ (Nat.le_refl 1) rfl (by decide : [0x16, 0x03] <+: hello)
  exact absurd taken (by decide)

end VetisTokio.TlsSniffing
