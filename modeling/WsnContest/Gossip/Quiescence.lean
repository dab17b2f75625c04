import WsnContest.Gossip.Numbers
import WsnContest.Gossip.Storm

/-! When `min_max` falls silent it has the answer. A node that has its number
always has its current status on the air, a delivered frame lies within the
status of its receiver, and no status holds a number that was not handed out;
once nothing is left to deliver, neighbours therefore agree. -/
namespace WsnContest.MinMax
open Tinyos Gossip Lib

variable {V : Type}

/-- A network whose root is the one node with the root's id. -/
structure Deployment (V : Type) where
  sim : Bool
  tosNodeId : V → Word16
  root : V
  root_iff : ∀ v, tosNodeId v = rootNodeId sim ↔ v = root
  /-- The number the serial line hands to the node. -/
  serialNumber : V → Word16

namespace Deployment
variable (d : Deployment V)

/-- Under `SIM` the number of a node is its id. -/
def handout : Handout V where
  root := d.root
  number v := if d.sim then d.tosNodeId v else d.serialNumber v

abbrev net : Network V (fun _ => State) (fun _ => Event) (fun _ => ErrorT) Message :=
  network d.sim d.tosNodeId

abbrev nodeSettings (v : V) : Settings := settings d.sim (d.tosNodeId v)

theorem isRoot_eq_false_iff (v : V) : (d.nodeSettings v).isRoot = false ↔ v ≠ d.root := by
  rw [ne_eq, ← d.root_iff]
  simp [Settings.isRoot, settings]

/-- Radios start once and before the node's number comes, the number before any
frame, frames travel along links, and every send is accepted. A broadcast may be
delivered any number of times. -/
def orderly (G : SimpleGraph V) (c : Config V) : NetEvent V → Prop
  | .act v e => e.accepted ∧
      (∀ sent, e = .startDone .success sent → (c.node v).milliTimer = false) ∧
      ∀ rcm sent, e = .serialReceive sizeofTestSerialMsg rcm sent →
        (c.node v).milliTimer = true ∧
          ((c.node v).serialReceived = false → rcm.number = d.serialNumber v)
  | .deliver i v sent => sent = .success ∧ (c.node v).serialReceived = true ∧
      ∃ u f, c.log[i]? = some (u, f) ∧ G.Adj u v

end Deployment

variable {d : Deployment V}

/-- A node by itself: its radio is idle; once it has its number it is started
and its status is in order; without `SIM` the number is still to come after the start. -/
structure Sound (d : Deployment V) (v : V) (s : State) : Prop where
  idle : Idle s
  started : s.serialReceived = true → s.milliTimer = true
  sim : d.sim = true → s.milliTimer = true → s.serialReceived = true
  knows : s.serialReceived = true → d.handout.Knows v s.status

theorem sound_init (v : V) : Sound d v {} := by
  refine ⟨⟨rfl, rfl⟩, ?_, ?_, ?_⟩ <;> simp

theorem sound_sendStatus {p : Settings} {v : V} {s : State} (h : Sound d v s) :
    Sound d v (sendStatus p .success s).1 :=
  ⟨idle_sendStatus h.idle, by simpa using h.started, by simpa using h.sim,
    by simpa using h.knows⟩

theorem genuine_of_sound {v : V} {s : State} (h : Sound d v s) {f : Message}
    (hf : f ∈ (sendStatus (d.nodeSettings v) .success s).2) : d.handout.Genuine v f := by
  obtain ⟨rfl, hserial, hroot⟩ := mem_sendStatus hf
  exact (h.knows hserial).genuine ((d.isRoot_eq_false_iff v).mp hroot)

theorem sound_started {v : V} {s : State} (h : Sound d v s)
    (hfresh : s.milliTimer = false) : Sound d v (started d.sim (d.nodeSettings v) s) := by
  have hserial : s.serialReceived = false := by
    cases hs : s.serialReceived
    · rfl
    · simp [h.started hs] at hfresh
  refine ⟨h.idle, fun _ => rfl, fun hsim _ => ?_, fun hnumber => ?_⟩
  · simp [started, hsim]
  · have hsim : d.sim = true := by simpa [started, hserial] using hnumber
    have hown : d.handout.number v = d.tosNodeId v := by simp [Deployment.handout, hsim]
    have := Handout.knows_own (d := d.handout) (v := v)
    rwa [hown] at this

theorem sound_numbered {v : V} {s : State} (h : Sound d v s) (hserial : s.serialReceived = false)
    (hmilli : s.milliTimer = true) {rcm : TestSerialMsg} (hrcm : rcm.number = d.serialNumber v) :
    Sound d v (numbered rcm s) := by
  have hsim : d.sim = false := by
    cases hs : d.sim
    · rfl
    · simp [h.sim hs hmilli] at hserial
  refine ⟨h.idle, fun _ => hmilli, fun _ _ => rfl, fun _ => ?_⟩
  have hown : d.handout.number v = rcm.number := by simp [Deployment.handout, hsim, hrcm]
  have := Handout.knows_own (d := d.handout) (v := v)
  rwa [hown] at this

variable [DecidableEq V] {G : SimpleGraph V}

theorem sound_of_reachable {c : Config V} (h : d.net.system.Reachable (d.orderly G) c) :
    (∀ v, Sound d v (c.node v)) ∧ ∀ u msg, (u, msg) ∈ c.log → d.handout.Genuine u msg := by
  refine Network.node_invariant (fun v => sound_init v) ?_ ?_ h
  · rintro c v e s fs hsound ⟨haccepted, hstart, hserial⟩ hhandle
    obtain ⟨sent, rfl, hcase⟩ | ⟨rcm, sent, rfl, hnumber, rfl, rfl⟩ | ⟨sent, rfl, htimer, -⟩ |
      ⟨rfl, hsame⟩ := handle_cases hhandle
    · obtain rfl : sent = .success := haccepted
      have hstarted := sound_started hsound (hstart _ rfl)
      obtain ⟨-, rfl, rfl⟩ | ⟨-, rfl, rfl⟩ := hcase
      · exact ⟨hstarted, by simp⟩
      · exact ⟨sound_sendStatus hstarted, fun f hf => genuine_of_sound hstarted hf⟩
    · obtain rfl : sent = .success := haccepted
      obtain ⟨hmilli, hrcm⟩ := hserial _ _ rfl
      have hnumbered := sound_numbered hsound hnumber hmilli (hrcm hnumber)
      exact ⟨sound_sendStatus hnumbered, fun f hf => genuine_of_sound hnumbered hf⟩
    · rw [hsound.idle.2] at htimer
      exact absurd htimer (by decide)
    · refine ⟨⟨⟨hsame.busyRadio hsound.idle.1, hsame.resendTimer.trans hsound.idle.2⟩,
        ?_, ?_, ?_⟩, by simp⟩
      · rw [hsame.serialReceived, hsame.milliTimer]
        exact hsound.started
      · rw [hsame.serialReceived, hsame.milliTimer]
        exact hsound.sim
      · rw [hsame.serialReceived, hsame.status]
        exact hsound.knows
  · rintro c i v sent u msg hsound hgenuine ⟨rfl, hserial, -⟩ -
    refine ⟨⟨idle_receive hsound.idle, ?_, ?_, fun _ => ?_⟩, fun g hg => ?_⟩
    · simpa using hsound.started
    · simpa using hsound.sim
    · exact (hsound.knows hserial).receive hgenuine _ _
    · obtain ⟨rfl, -, hroot⟩ := mem_receive hg
      have hknows := (hsound.knows hserial).receive hgenuine (d.nodeSettings v) .success
      exact hknows.genuine ((d.isRoot_eq_false_iff v).mp hroot)

theorem told_of_reachable {c : Config V} (h : d.net.system.Reachable (d.orderly G) c) :
    d.handout.Told (fun _ _ => False) c := by
  refine h.invariant_of (P := d.handout.Told fun _ _ => False)
    (Q := fun c => (∀ v, Sound d v (c.node v)) ∧ ∀ u msg, (u, msg) ∈ c.log →
      d.handout.Genuine u msg) (fun _ hc => sound_of_reachable hc) ?_ ?_
  · refine ⟨fun v _ hserial => ?_, fun i v hmem => ?_⟩
    · exact absurd hserial (by simp [Network.system, network])
    · exact absurd hmem (by simp [Network.system])
  · rintro c e c' ⟨hsound, hgenuine⟩ htold hallowed hstep
    obtain ⟨v, e, s, fs, rfl, hhandle, rfl⟩ | ⟨i, v, sent, u, msg, rfl, hi, rfl⟩ :=
      Network.system_step _ hstep
    · obtain ⟨haccepted, hstart, hserial⟩ := hallowed
      have hroot := d.isRoot_eq_false_iff v
      obtain ⟨sent, rfl, hcase⟩ | ⟨rcm, sent, rfl, hnumber, rfl, rfl⟩ | ⟨sent, rfl, htimer, -⟩ |
        ⟨rfl, hsame⟩ := handle_cases hhandle
      · obtain rfl : sent = .success := haccepted
        have hfresh := hstart _ rfl
        have hnone : (c.node v).serialReceived = false := by
          cases hs : (c.node v).serialReceived
          · rfl
          · simp [(hsound v).started hs] at hfresh
        obtain ⟨hsim, rfl, rfl⟩ | ⟨hsim, rfl, rfl⟩ := hcase
        · refine htold.put (fun _ hnumber _ => ?_) (fun hs => absurd hs (by simp [hnone]))
          simp [started, hsim, hnone] at hnumber
        · refine htold.put (fun hv _ _ => .inl ?_) (fun hs => absurd hs (by simp [hnone]))
          rw [sendStatus_status]
          exact sendStatus_airs (by simp [started, hsim]) (hroot.mpr hv) (hsound v).idle.1
      · obtain rfl : sent = .success := haccepted
        refine htold.put (fun hv _ _ => .inl ?_) (fun hs => absurd hs (by simp [hnumber]))
        rw [sendStatus_status]
        exact sendStatus_airs rfl (hroot.mpr hv) (hsound v).idle.1
      · rw [(hsound v).idle.2] at htimer
        exact absurd htimer (by decide)
      · refine htold.put (fun _ hs _ => .inr ⟨?_, id, hsame.status⟩) fun hs => ⟨?_, ?_⟩
        · exact hsame.serialReceived ▸ hs
        · exact hsame.serialReceived.trans hs
        · exact hsame.status.ge
    · obtain ⟨rfl, hserial, -⟩ := hallowed
      exact htold.receive hi (hgenuine u msg (List.mem_of_getElem? hi)) hserial (hsound v).idle.1
        (d.isRoot_eq_false_iff v).mpr fun _ => id

/-- In a network whose senders are connected and whose root has a neighbour, once
every node has its number and no delivery is left to make, each sender holds the
extremes of the senders' numbers and the root those of all numbers. -/
theorem gossip_settles (d : Deployment V) (G : SimpleGraph V)
    (hconnected : (G.induce {v | v ≠ d.root}).Preconnected) (hroot : ∃ v, G.Adj v d.root)
    (c : Config V) (hreach : d.net.system.Reachable (d.orderly G) c)
    (hnumbers : ∀ v, (c.node v).serialReceived = true) (hquiet : Network.Quiet G.Adj c) :
    (∀ v, v ≠ d.root → Handout.Extremes d.handout.senderNumbers (c.node v).status) ∧
      Handout.Extremes d.handout.allNumbers (c.node d.root).status := by
  have hknows : ∀ v, d.handout.Knows v (c.node v).status := fun v =>
    ((sound_of_reachable hreach).1 v).knows (hnumbers v)
  have htold := told_of_reachable hreach
  exact Handout.extremes_of_flow (d := d.handout) hconnected hroot hknows
    fun u v hu hadj => htold.flow hquiet hu (hnumbers u) id hadj

/-- A root with id 1 and one sender with id 5, under `SIM`. -/
def pair : Deployment Bool where
  sim := true
  tosNodeId v := if v then 1 else 5
  root := true
  root_iff := by decide
  serialNumber _ := 0

theorem gossip_settles_pair :
    Handout.Extremes pair.handout.senderNumbers ⟨5, 5⟩ ∧
      Handout.Extremes pair.handout.allNumbers ⟨5, 1⟩ := by
  have hstart : ∀ (c : Config Bool) v, (c.node v).milliTimer = false →
      pair.orderly ⊤ c (.act v (.startDone .success .success)) :=
    fun _ _ hfresh => ⟨rfl, fun _ _ => hfresh, fun _ _ h => nomatch h⟩
  have hdeliver : ∀ (c : Config Bool) f, (c.node true).serialReceived = true →
      c.log[0]? = some (false, f) → pair.orderly ⊤ c (.deliver 0 true .success) :=
    fun _ f hserial hlog => ⟨rfl, hserial, false, f, hlog, by decide⟩
  have hinit : pair.net.system.Reachable (pair.orderly ⊤) _ := .init
  have hsender := hinit.step (hstart _ false rfl) rfl
  have hroot := hsender.step (hstart _ true rfl) rfl
  have hreach := hroot.step (hdeliver _ _ rfl rfl) rfl
  have hconnected : ((⊤ : SimpleGraph Bool).induce {v | v ≠ pair.root}).Preconnected := by
    rintro ⟨u, hu⟩ ⟨v, hv⟩
    obtain rfl : u = v := by revert u v; decide
    rfl
  have hsettles := gossip_settles pair ⊤ hconnected ⟨false, by decide⟩ _ hreach (by decide) (by
    rintro (_ | i) u f v hlog hadj
    · cases v
      · cases hlog
        exact absurd hadj (by decide)
      · exact List.mem_singleton_self _
    · cases hlog)
  exact ⟨hsettles.1 false (by decide), hsettles.2⟩

end WsnContest.MinMax
