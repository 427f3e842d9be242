import VetisTokio.WorkerAccount

/-! What a worker without live tasks counts. A task takes its entry out only on one
of its ways to an end, and only if the entry is there by then, and the code enforces
neither; where both are so, nothing is left of the tasks that are gone. -/
namespace VetisTokio.WorkerTable
open HttpData ConfigData WorkerModel WorkerRuns WorkerAccount

variable {C : Type} {p : Protocol C} {w out : Worker C} {l : Label C}

def CountsNothingGone (w : Worker C) : Prop :=
  w.loop = .receiving → (∀ task ∈ w.tasks, task.finished = true) → w.connections = ∅ ∧ w.totalConnections = 0

/- A task leaves through its removal, and only once its handle is in the table. -/
def LeavesEntered (w : Worker C) : Label C → Prop
  | .task _ (.handshake accepted) => accepted = true
  | .task _ .panic => False
  | .task t .remove => ∀ clientAddr, w.loop ≠ .spawned t clientAddr
  | _ => True

theorem nothingLeft {labels : List (Label C)} (meets : Runs.Meets (Worker.step p) LeavesEntered Worker.new labels)
    (ran : Runs.run (Worker.step p) Worker.new labels = some w) (t : Nat) : ¬ LeftBehind p labels t := by
  rintro (failed | panicked | ⟨before, after, clientAddr, state, rfl, earlier, spawned⟩)
  · obtain ⟨state, holds⟩ := Runs.meetsMember meets ran failed
    contradiction
  · obtain ⟨state, holds⟩ := Runs.meetsMember meets ran panicked
    exact holds
  · exact (Runs.meetsAppend meets earlier).2.1 clientAddr spawned

theorem enteredRun {labels : List (Label C)} (meets : Runs.Meets (Worker.step p) LeavesEntered Worker.new labels)
    (ran : Runs.run (Worker.step p) Worker.new labels = some w) : CountsNothingGone w := by
  intro place gone
  have account := (accountRun ran).accounted
  have running : Running w := by simp [Running, place]
  have none : w.connections.entries = [] := by
    apply List.eq_nil_iff_forall_not_mem.mpr
    intro entry member
    have held : w.connections.lookup entry.1 = some entry.2 := AList.mem_lookup_iff.mpr member
    obtain ⟨task, there, _⟩ := account.own entry.1 entry.2 held
    have done := gone task (List.mem_of_getElem? there)
    exact nothingLeft meets ran entry.2 (account.stale running entry.1 entry.2 (.inl held) task there done)
  exact ⟨AList.ext none, by simp [Worker.totalConnections, none]⟩

def client : SocketAddr := ⟨.v4 0x7f000001, 40000⟩
def hello : TcpStream := ⟨0, .ok client, .ok [0x16, 0x03]⟩
def quic : Connection := ⟨0, client⟩

def NoStaleEntries (step : Worker C → Label C → Option (Worker C)) (labels : List (Label C)) : Prop :=
  ∀ w, Label.stop ∉ labels → Runs.run step Worker.new labels = some w → CountsNothingGone w

theorem noStaleEntriesWhenEntered (streams : List (Label TcpStream)) (conns : List (Label Connection)) :
    (Runs.Meets TcpWorker.step LeavesEntered Worker.new streams → NoStaleEntries TcpWorker.step streams) ∧
    (Runs.Meets UdpWorker.step LeavesEntered Worker.new conns → NoStaleEntries UdpWorker.step conns) :=
  ⟨fun meets _ _ ran => enteredRun meets ran, fun meets _ _ ran => enteredRun meets ran⟩

def plain : TcpStream := ⟨1, .ok ⟨.v4 0x7f000001, 40001⟩, .ok [0x47, 0x45]⟩

def servedRun : List (Label TcpStream) :=
  [.poll, .recv hello, .sniff, .insert, .recv plain, .sniff, .insert, .task 0 (.handshake true), .task 1 .served,
    .task 0 (.request 0), .task 0 (.response 0), .task 0 .served, .task 1 .remove, .task 0 .remove]

def servedQuic : List (Label Connection) := [.poll, .recv quic, .sniff, .insert, .task 0 .served, .task 0 .remove]

theorem enteredAtRemove {t : Nat} (place : w.loop = .receiving) : LeavesEntered w (.task t .remove) := by
  intro clientAddr spawned
  rw [place] at spawned
  contradiction

theorem servedLeavesNoEntry : (∃ w, Runs.run TcpWorker.step Worker.new servedRun = some w ∧ CountsNothingGone w) ∧
    ∃ w, Runs.run UdpWorker.step Worker.new servedQuic = some w ∧ CountsNothingGone w := by
  have streams : Runs.Meets TcpWorker.step LeavesEntered Worker.new servedRun := by
    refine Runs.meetsCons trivial rfl (Runs.meetsCons trivial rfl (Runs.meetsCons trivial rfl ?_))
    refine Runs.meetsCons trivial rfl (Runs.meetsCons trivial rfl (Runs.meetsCons trivial rfl ?_))
    refine Runs.meetsCons trivial rfl (Runs.meetsCons rfl rfl (Runs.meetsCons trivial rfl ?_))
    refine Runs.meetsCons trivial rfl (Runs.meetsCons trivial rfl (Runs.meetsCons trivial rfl ?_))
    exact Runs.meetsCons (enteredAtRemove rfl) rfl (Runs.meetsCons (enteredAtRemove rfl) rfl trivial)
  have conns : Runs.Meets UdpWorker.step LeavesEntered Worker.new servedQuic := by
    refine Runs.meetsCons trivial rfl (Runs.meetsCons trivial rfl (Runs.meetsCons trivial rfl ?_))
    refine Runs.meetsCons trivial rfl (Runs.meetsCons trivial rfl ?_)
    exact Runs.meetsCons (enteredAtRemove rfl) rfl trivial
  have both := noStaleEntriesWhenEntered servedRun servedQuic
  exact ⟨⟨_, rfl, both.1 streams _ (by simp [servedRun]) rfl⟩, ⟨_, rfl, both.2 conns _ (by simp [servedQuic]) rfl⟩⟩

theorem staleEntries : (¬ ∀ labels, NoStaleEntries TcpWorker.step labels) ∧
    ¬ ∀ labels, NoStaleEntries UdpWorker.step labels := by
  refine ⟨?_, ?_⟩
  · intro claim
    have gone := claim [.poll, .recv hello, .sniff, .insert, .task 0 (.handshake false)] _ (by simp) rfl
    exact absurd (gone rfl (by decide)).2 (by decide)
  · intro claim
    have gone := claim [.poll, .recv quic, .sniff, .task 0 .served, .task 0 .remove, .insert] _ (by simp) rfl
    exact absurd (gone rfl (by decide)).2 (by decide)

end VetisTokio.WorkerTable
