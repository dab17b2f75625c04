import WsnContest.Gossip.BiDaXiao

/-! What the silence of `BiDaXiao` costs. A number of the middle range is not
announced, so nothing is ever sent unless some sender holds another one; such a
sender wakes up its whole component, and the gossip then ends as the plain one does. -/
namespace WsnContest.BiDaXiao
open Tinyos Gossip Lib

variable {V : Type}

abbrev Config (V : Type) := Network.Config (fun _ : V => State) Message
abbrev NetEvent (V : Type) := Network.Event (fun _ : V => Event) (fun _ : V => ErrorT)

/-- The radio accepts the send the handler may call. -/
def Event.accepted : Event → Prop
  | .sendTimerFired sent | .resendTimerFired sent => sent = .success
  | .startDone _ | .milliTimerFired | .sendDone _ | .serialReceive _ _ => True

/-- A network whose root is the one node with id 0, and the numbers handed out. -/
structure Deployment (V : Type) extends Handout V where
  tosNodeId : V → Word16
  root_iff : ∀ v, tosNodeId v = 0 ↔ v = root

namespace Deployment
variable (d : Deployment V)

abbrev net : Network V (fun _ => State) (fun _ => Event) (fun _ => ErrorT) Message :=
  network d.tosNodeId

abbrev nodeSettings (v : V) : Settings := settings (d.tosNodeId v)

theorem isRoot_eq_false_iff (v : V) : (d.nodeSettings v).isRoot = false ↔ v ≠ d.root := by
  rw [ne_eq, ← d.root_iff]
  simp [Settings.isRoot, settings]

/-- A node gets its number before any frame, frames travel along links, and
every send is accepted. A broadcast may be delivered any number of times. -/
def orderly (G : SimpleGraph V) (c : Config V) : NetEvent V → Prop
  | .act v e => e.accepted ∧ ∀ rcm, e = .serialReceive sizeofTestSerialMsg rcm →
      (c.node v).serialReceived = false → rcm.number = d.number v
  | .deliver i v sent => sent = .success ∧ (c.node v).serialReceived = true ∧
      ∃ u f, c.log[i]? = some (u, f) ∧ G.Adj u v

/-- Some sender announces its number. -/
def Wakeful : Prop := ∃ w, w ≠ d.root ∧ announced (d.number w) = true

/-- The status covers a number that was announced. -/
def Loud (status : TestSendMsg) : Prop :=
  ∃ w, w ≠ d.root ∧ announced (d.number w) = true ∧ ⟨d.number w, d.number w⟩ ≤ status

variable {d}

theorem Loud.mono {a b : TestSendMsg} (h : d.Loud a) (hab : a ≤ b) : d.Loud b := by
  obtain ⟨w, hw, hannounced, hle⟩ := h
  exact ⟨w, hw, hannounced, hle.trans hab⟩

theorem Loud.wakeful {a : TestSendMsg} (h : d.Loud a) : d.Wakeful := by
  obtain ⟨w, hw, hannounced, -⟩ := h
  exact ⟨w, hw, hannounced⟩

theorem not_loud_own {v : V} (h : announced (d.number v) = false) :
    ¬ d.Loud ⟨d.number v, d.number v⟩ := by
  rintro ⟨w, -, hannounced, hmax, hmin⟩
  have hsame : d.number w = d.number v := le_antisymm hmax hmin
  rw [hsame, h] at hannounced
  exact absurd hannounced (by decide)

end Deployment

/-- Something is still to be sent or to be confirmed. -/
def Pending (s : State) : Prop :=
  s.sendTimer.isSome = true ∨ s.resendTimer = true ∨ s.outstanding ≠ 0

variable {d : Deployment V}

/-- A node by itself: its radio is idle, it sends only once it has a number, and
a node that has neither announced nor heard anything still holds its own number. -/
structure Sound (d : Deployment V) (v : V) (s : State) : Prop where
  idle : s.busyRadio = false
  numberless : s.serialReceived = false → ¬ Pending s
  knows : s.serialReceived = true → d.Knows v s.status
  quiet : s.serialReceived = true → ¬ d.Loud s.status →
    s.status = ⟨d.number v, d.number v⟩ ∧ (v ≠ d.root → ¬ Pending s)

theorem sound_init (v : V) : Sound d v {} := by
  refine ⟨rfl, fun _ => ?_, by simp, by simp⟩
  simp [Pending]

theorem sound_numbered {v : V} {s : State} (h : Sound d v s) (hserial : s.serialReceived = false)
    {rcm : TestSerialMsg} (hrcm : rcm.number = d.number v) :
    Sound d v (numbered (d.nodeSettings v) rcm s) := by
  refine ⟨h.idle, by simp [numbered], fun _ => ?_, fun _ hloud => ⟨?_, fun hv => ?_⟩⟩
  · rw [show (numbered _ rcm s).status = ⟨d.number v, d.number v⟩ by rw [← hrcm]; rfl]
    exact Handout.knows_own
  · rw [← hrcm]
    rfl
  · -- an announced number makes the status loud, so no timer was started
    have hhushed : announced rcm.number = false := by
      cases hannounced : announced rcm.number
      · rfl
      · rw [hrcm] at hannounced
        exact absurd ⟨v, hv, hannounced, hrcm ▸ le_rfl⟩ hloud
    have hpending := h.numberless hserial
    simpa [Pending, numbered, hhushed] using hpending

/-- Sending leaves a loud node sound, and so does the silence of the root. -/
theorem sound_sendStatus {v : V} {s : State} (h : Sound d v s)
    (hloud : v ≠ d.root → s.serialReceived = true → d.Loud s.status) :
    Sound d v (sendStatus (d.nodeSettings v) .success s).1 := by
  refine ⟨(sendStatus_success_idle _ h.idle).1, fun hnone => ?_, by simpa using h.knows,
    fun hserial hquiet => ?_⟩
  · rw [sendStatus_serialReceived] at hnone
    rw [sendStatus_silent (.inl hnone)]
    exact h.numberless hnone
  · rw [sendStatus_serialReceived] at hserial
    rw [sendStatus_status] at hquiet ⊢
    exact ⟨(h.quiet hserial hquiet).1, fun hv => absurd (hloud hv hserial) hquiet⟩

/-- Whoever has something to send has heard an announced number, or holds one. -/
theorem loud_of_pending {v : V} {s : State} (h : Sound d v s) (hv : v ≠ d.root)
    (hpending : Pending s) : s.serialReceived = true ∧ d.Loud s.status := by
  have hserial : s.serialReceived = true := by
    by_contra hnone
    exact h.numberless (by simpa using hnone) hpending
  refine ⟨hserial, ?_⟩
  by_contra hquiet
  exact (h.quiet hserial hquiet).2 hv hpending

theorem genuine_of_sound {v : V} {s : State} (h : Sound d v s)
    (hloud : v ≠ d.root → s.serialReceived = true → d.Loud s.status) {f : Message}
    (hf : f ∈ (sendStatus (d.nodeSettings v) .success s).2) :
    d.Genuine v f ∧ d.Loud f.payload := by
  obtain ⟨rfl, hserial, hroot⟩ := mem_sendStatus hf
  have hv := (d.isRoot_eq_false_iff v).mp hroot
  exact ⟨(h.knows hserial).genuine hv, hloud hv hserial⟩

/-- A step that changes neither number nor status and leaves no more to send
keeps the node sound. -/
theorem Sound.still {v : V} {s t : State} (h : Sound d v s)
    (hbusy : s.busyRadio = false → t.busyRadio = false)
    (hserial : t.serialReceived = s.serialReceived) (hstatus : t.status = s.status)
    (hpending : Pending t → Pending s) : Sound d v t := by
  refine ⟨hbusy h.idle, ?_, ?_, ?_⟩ <;> rw [hserial]
  · exact fun hnone ht => h.numberless hnone (hpending ht)
  · exact hstatus ▸ h.knows
  · rw [hstatus]
    intro hnumber hquiet
    obtain ⟨hown, hidle⟩ := h.quiet hnumber hquiet
    exact ⟨hown, fun hv ht => hidle hv (hpending ht)⟩

theorem Unmoved.pending {s s' : State} (h : Unmoved s s') (hpending : Pending s') : Pending s := by
  rcases hpending with hsend | hresend | hout
  · exact .inl (h.sendTimer ▸ hsend)
  · exact .inr (h.resendTimer hresend)
  · exact .inr (.inr fun hzero => hout (Nat.eq_zero_of_le_zero (hzero ▸ h.outstanding)))

theorem Fired.pending {s t : State} (h : Fired s t) (hpending : Pending t) : Pending s := by
  rcases hpending with hsend | hresend | hout
  · exact .inl (h.sendTimer hsend)
  · exact .inr (.inl (h.resendTimer hresend))
  · exact .inr (.inr (h.outstanding ▸ hout))

/-- A timer that fires finds a sound node, loud if it is a sender. -/
theorem sound_fired {v : V} {s t : State} (h : Sound d v s) (hfired : Fired s t) :
    Sound d v t ∧ (v ≠ d.root → t.serialReceived = true → d.Loud t.status) := by
  refine ⟨h.still (fun hs => hfired.busyRadio.trans hs) hfired.serialReceived hfired.status
    hfired.pending, fun hv _ => ?_⟩
  have hdue : Pending s := hfired.due.elim .inl fun hresend => .inr (.inl hresend)
  rw [hfired.status]
  exact (loud_of_pending h hv hdue).2

theorem sound_receive {u v : V} {s : State} {msg : Message} (h : Sound d v s)
    (hserial : s.serialReceived = true) (hmsg : d.Genuine u msg) (hloud : d.Loud msg.payload) :
    Sound d v (receive (d.nodeSettings v) .success msg s).1 ∧
      d.Loud (receive (d.nodeSettings v) .success msg s).1.status := by
  have hloud' : d.Loud (receive (d.nodeSettings v) .success msg s).1.status := by
    rw [receive_status, if_pos hmsg.length]
    exact hloud.mono le_sup_right
  refine ⟨⟨(receive_success_idle _ h.idle).1, fun hnone => ?_, fun _ => ?_, fun _ hquiet => ?_⟩,
    hloud'⟩
  · rw [receive_serialReceived, hserial] at hnone
    exact absurd hnone (by decide)
  · exact (h.knows hserial).receive hmsg _ _
  · exact absurd hloud' hquiet

variable [DecidableEq V] {G : SimpleGraph V}

theorem sound_of_reachable {c : Config V} (h : d.net.system.Reachable (d.orderly G) c) :
    (∀ v, Sound d v (c.node v)) ∧
      ∀ u msg, (u, msg) ∈ c.log → d.Genuine u msg ∧ d.Loud msg.payload := by
  refine Network.node_invariant (fun v => sound_init v) ?_ ?_ h
  · rintro c v e s fs hsound ⟨haccepted, hserial⟩ hhandle
    obtain ⟨rcm, rfl, hnone, rfl, rfl⟩ | ⟨sent, t, hevent, hfired, rfl, rfl⟩ | ⟨rfl, hsame⟩ :=
      handle_cases hhandle
    · exact ⟨sound_numbered hsound hnone (hserial rcm rfl hnone), by simp⟩
    · obtain rfl : sent = .success := by rcases hevent with rfl | rfl <;> exact haccepted
      obtain ⟨ht, hloud⟩ := sound_fired hsound hfired
      exact ⟨sound_sendStatus ht hloud, fun f hf => genuine_of_sound ht hloud hf⟩
    · exact ⟨hsound.still hsame.busyRadio hsame.serialReceived hsame.status hsame.pending,
        by simp⟩
  · rintro c i v sent u msg hsound ⟨hgenuine, hloud⟩ ⟨rfl, hserial, -⟩ -
    obtain ⟨hsound', hloud'⟩ := sound_receive hsound hserial hgenuine hloud
    refine ⟨hsound', fun g hg => ?_⟩
    obtain ⟨rfl, -, hroot⟩ := mem_receive hg
    have hknows := (hsound.knows hserial).receive hgenuine (d.nodeSettings v) .success
    exact ⟨hknows.genuine ((d.isRoot_eq_false_iff v).mp hroot), hloud'⟩

/-- A node still owes its status while `SendTimer` runs, and while it is silent. -/
def Owes (d : Deployment V) (_ : V) (s : State) : Prop :=
  s.sendTimer.isSome = true ∨ ¬ d.Loud s.status

theorem told_of_reachable {c : Config V} (h : d.net.system.Reachable (d.orderly G) c) :
    d.Told (Owes d) c := by
  refine h.invariant_of (P := d.Told (Owes d))
    (Q := fun c => (∀ v, Sound d v (c.node v)) ∧
      ∀ u msg, (u, msg) ∈ c.log → d.Genuine u msg ∧ d.Loud msg.payload)
    (fun _ hc => sound_of_reachable hc) ?_ ?_
  · refine ⟨fun v _ hserial => ?_, fun i v hmem => ?_⟩
    · exact absurd hserial (by simp [Network.system, network])
    · exact absurd hmem (by simp [Network.system])
  · rintro c e c' ⟨hsound, hlog⟩ htold hallowed hstep
    obtain ⟨v, e, s, fs, rfl, hhandle, rfl⟩ | ⟨i, v, sent, u, msg, rfl, hi, rfl⟩ :=
      Network.system_step _ hstep
    · obtain ⟨haccepted, hnumber⟩ := hallowed
      have hidle := (hsound v).idle
      obtain ⟨rcm, rfl, hnone, rfl, rfl⟩ | ⟨sent, t, hevent, hfired, rfl, rfl⟩ | ⟨rfl, hsame⟩ :=
        handle_cases hhandle
      · refine htold.put (fun hv _ howes => absurd ?_ howes) (fun hs => absurd hs (by simp [hnone]))
        cases hannounced : announced rcm.number
        · right
          rw [hnumber rcm rfl hnone] at hannounced
          have hquiet := d.not_loud_own hannounced
          rwa [← hnumber rcm rfl hnone] at hquiet
        · left
          simp [numbered, hannounced]
      · obtain rfl : sent = .success := by rcases hevent with rfl | rfl <;> exact haccepted
        refine htold.put (fun hv hs _ => .inl ?_) fun hs => ⟨?_, ?_⟩
        · rw [sendStatus_serialReceived] at hs
          rw [sendStatus_status]
          exact sendStatus_airs hs ((d.isRoot_eq_false_iff v).mpr hv) (hfired.busyRadio.trans hidle)
        · rw [sendStatus_serialReceived, hfired.serialReceived, hs]
        · rw [sendStatus_status, hfired.status]
      · refine htold.put (fun _ hs howes => .inr ⟨?_, ?_, hsame.status⟩) fun hs => ⟨?_, ?_⟩
        · exact hsame.serialReceived ▸ hs
        · unfold Owes at howes ⊢
          rwa [hsame.sendTimer, hsame.status] at howes
        · exact hsame.serialReceived.trans hs
        · exact hsame.status.ge
    · obtain ⟨rfl, hserial, -⟩ := hallowed
      refine htold.receive hi (hlog u msg (List.mem_of_getElem? hi)).1 hserial (hsound v).idle
        (d.isRoot_eq_false_iff v).mpr fun hsame howes => ?_
      unfold Owes
      rwa [receive_sendTimer, hsame]

/-- Nothing is left to deliver and no send is waiting for a timer. -/
def Settled (G : SimpleGraph V) (c : Config V) : Prop :=
  Network.Quiet G.Adj c ∧ ∀ v, (c.node v).sendTimer = none ∧ (c.node v).resendTimer = false

/-- Once one sender announces its number, every sender has heard of it. -/
theorem all_loud {c : Config V} (hreach : d.net.system.Reachable (d.orderly G) c)
    (hconnected : (G.induce {v | v ≠ d.root}).Preconnected)
    (hnumbers : ∀ v, (c.node v).serialReceived = true) (hsettled : Settled G c)
    (hwakeful : d.Wakeful) (v : V) (hv : v ≠ d.root) : d.Loud (c.node v).status := by
  obtain ⟨hquiet, htimers⟩ := hsettled
  obtain ⟨w, hw, hannounced⟩ := hwakeful
  have hown := (((sound_of_reachable hreach).1 w).knows (hnumbers w)).own
  have htold := told_of_reachable hreach
  refine reachable_spread (P := fun u : {u // u ∈ {u | u ≠ d.root}} => d.Loud (c.node u).status)
    (fun a b hadj hloud => hloud.mono ?_) (hconnected ⟨w, hw⟩ ⟨v, hv⟩) ⟨w, hw, hannounced, hown⟩
  refine htold.flow hquiet a.2 (hnumbers a) ?_ hadj
  rintro (hsend | hsilent)
  · simp [(htimers a).1] at hsend
  · exact hsilent hloud

/-- In a network whose senders are connected and whose root has a neighbour, once
every node has its number and everything has settled, the root has the extremes of
all numbers exactly if some sender announced its number or there is one number only. -/
theorem root_answers_iff (d : Deployment V) (G : SimpleGraph V)
    (hconnected : (G.induce {v | v ≠ d.root}).Preconnected) (hroot : ∃ v, G.Adj v d.root)
    (c : Config V) (hreach : d.net.system.Reachable (d.orderly G) c)
    (hnumbers : ∀ v, (c.node v).serialReceived = true) (hsettled : Settled G c) :
    Handout.Extremes d.allNumbers (c.node d.root).status ↔
      d.Wakeful ∨ ∀ v, d.number v = d.number d.root := by
  have hsound := (sound_of_reachable hreach).1
  have hknows : ∀ v, d.Knows v (c.node v).status := fun v => (hsound v).knows (hnumbers v)
  constructor
  · intro hextremes
    by_cases hwakeful : d.Wakeful
    · exact .inl hwakeful
    · obtain ⟨hown, -⟩ := (hsound d.root).quiet (hnumbers d.root) fun hloud =>
        hwakeful hloud.wakeful
      rw [hown] at hextremes
      exact .inr fun v => le_antisymm (hextremes.1.2 ⟨v, rfl⟩) (hextremes.2.2 ⟨v, rfl⟩)
  · rintro (hwakeful | hone)
    · have hloud := all_loud hreach hconnected hnumbers hsettled hwakeful
      refine (Handout.extremes_of_flow hconnected hroot hknows fun u v hu hadj => ?_).2
      refine (told_of_reachable hreach).flow hsettled.1 hu (hnumbers u) ?_ hadj
      rintro (hsend | hsilent)
      · simp [(hsettled.2 u).1] at hsend
      · exact hsilent (hloud u hu)
    · obtain ⟨wmax, -, hmax⟩ := (hknows d.root).max_heard
      obtain ⟨wmin, -, hmin⟩ := (hknows d.root).min_heard
      refine ⟨⟨⟨wmax, hmax⟩, ?_⟩, ⟨⟨wmin, hmin⟩, ?_⟩⟩
      · rintro n ⟨u, rfl⟩
        rw [hone u]
        exact (hknows d.root).own.1
      · rintro n ⟨u, rfl⟩
        rw [hone u]
        exact (hknows d.root).own.2

theorem senders_preconnected (d : Deployment Bool) :
    ((⊤ : SimpleGraph Bool).induce {v | v ≠ d.root}).Preconnected := by
  rintro ⟨u, hu⟩ ⟨v, hv⟩
  obtain rfl : u = v := by
    revert hu hv
    cases d.root <;> cases u <;> cases v <;> simp
  rfl

/-- The root and one sender whose number is announced at once. -/
def spoken : Deployment Bool where
  root := true
  number v := if v then 0x6001 else 5
  tosNodeId v := if v then 0 else 1
  root_iff := by decide

theorem orderly_serialReceive (d : Deployment Bool) (G : SimpleGraph Bool) (c : Config Bool)
    (v : Bool) :
    d.orderly G c (.act v (.serialReceive sizeofTestSerialMsg ⟨0, d.number v⟩)) := by
  refine ⟨trivial, fun rcm h _ => ?_⟩
  cases h
  rfl

theorem root_answers_spoken : Handout.Extremes spoken.allNumbers ⟨0x6001, 5⟩ := by
  have hfire : ∀ c : Config Bool, spoken.orderly ⊤ c (.act false (.sendTimerFired .success)) :=
    fun _ => ⟨rfl, fun _ h => nomatch h⟩
  have hdeliver : ∀ (c : Config Bool) f, (c.node true).serialReceived = true →
      c.log[0]? = some (false, f) → spoken.orderly ⊤ c (.deliver 0 true .success) :=
    fun _ f hnumber hlog => ⟨rfl, hnumber, false, f, hlog, by decide⟩
  have hinit : spoken.net.system.Reachable (spoken.orderly ⊤) _ := .init
  have hsender := hinit.step (orderly_serialReceive _ ⊤ _ false) rfl
  have hroot := hsender.step (orderly_serialReceive _ ⊤ _ true) rfl
  have htimer := hroot.step (hfire _) rfl
  have hreach := htimer.step (hdeliver _ _ rfl rfl) rfl
  refine (root_answers_iff spoken ⊤ (senders_preconnected _) ⟨false, by decide⟩ _ hreach
    (by decide) ⟨?_, by decide⟩).mpr (.inl ⟨false, by decide, by decide⟩)
  rintro (_ | i) u f v hlog hadj
  · cases v
    · cases hlog
      exact absurd hadj (by decide)
    · exact List.mem_singleton_self _
  · cases hlog

/-- The root and one sender, both holding numbers of the middle range. -/
def hushed : Deployment Bool where
  root := true
  number v := if v then 0x6001 else 0x7000
  tosNodeId v := if v then 0 else 1
  root_iff := by decide

/-- The sender never speaks, so the root never learns of the larger number. -/
theorem hushed_root_misses :
    ((⊤ : SimpleGraph Bool).induce {v | v ≠ hushed.root}).Preconnected ∧
    (∃ v, (⊤ : SimpleGraph Bool).Adj v hushed.root) ∧
    ∃ c, hushed.net.system.Reachable (hushed.orderly ⊤) c ∧
      (∀ v, (c.node v).serialReceived = true) ∧ Settled ⊤ c ∧
      ¬ Handout.Extremes hushed.allNumbers (c.node hushed.root).status := by
  have hinit : hushed.net.system.Reachable (hushed.orderly ⊤) _ := .init
  have hsender := hinit.step (orderly_serialReceive _ ⊤ _ false) rfl
  have hreach := hsender.step (orderly_serialReceive _ ⊤ _ true) rfl
  refine ⟨senders_preconnected _, ⟨false, by decide⟩, _, hreach, by decide, ⟨?_, by decide⟩, ?_⟩
  · rintro i u f v hlog -
    cases hlog
  · rintro ⟨⟨-, hgreatest⟩, -⟩
    have hle : (0x7000 : Word16) ≤ 0x6001 := hgreatest ⟨false, rfl⟩
    exact absurd hle (by decide)

end WsnContest.BiDaXiao
