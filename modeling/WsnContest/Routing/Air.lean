import WsnContest.Routing.Buffer
import WsnContest.Routing.LoopFree

/-! The network as the radios make it. A frame goes out with whatever the packet holds when
the radio reads it, whole and between two handlers, and who hears it reads the payload by the
type in its header. As long as no handler writes over a packet that is out, this is the
network whose frames go out as they were handed over. -/
namespace WsnContest.Routing
open Tinyos Lib

/-- The number in the first two bytes. -/
def netWord (bytes : List Word8) : Word16 :=
  Fin.ofNat _ ((bytes.getD 0 0).val * 2 ^ 8 + (bytes.getD 1 0).val)

theorem netWord_netBytes (w : Word16) (rest : List Word8) : netWord (netBytes w ++ rest) = w := by
  apply Fin.ext
  have hword : w.val / 2 ^ 8 * 2 ^ 8 + w.val % 2 ^ 8 = w.val := Nat.div_add_mod' _ _
  simp only [netWord, netBytes, List.cons_append, List.nil_append, List.getD_cons_zero,
    List.getD_cons_succ, Fin.val_ofNat, hword]
  exact Nat.mod_eq_of_lt w.isLt

/-- The payload that a handler for frames of this type finds in the bytes. -/
def Msg.ofBytes (am : AmId) (bytes : List Word8) : Msg :=
  match am with
  | .beacon => .beacon ⟨netWord bytes, netWord (bytes.drop 2),
      Vector.ofFn fun i => bytes.getD (4 + i.val) 0⟩
  | .control => .control ⟨netWord bytes, netWord (bytes.drop 2)⟩
  | .route => .route ⟨netWord bytes, netWord (bytes.drop 2), netWord (bytes.drop 4)⟩

/-- A payload is read as it was written, whatever lies behind it. -/
theorem Msg.ofBytes_bytes (m : Msg) (rest : List Word8) : ofBytes m.am (m.bytes ++ rest) = m := by
  have hdrop : ∀ (w : Word16) (bytes : List Word8), (netBytes w ++ bytes).drop 2 = bytes :=
    fun w bytes => rfl
  cases m with
  | beacon bm =>
    obtain ⟨nodeid, counter, data⟩ := bm
    simp only [am, bytes, ofBytes, List.append_assoc, netWord_netBytes, hdrop]
    have hdata : (Vector.ofFn fun i : Fin 40 =>
        (netBytes nodeid ++ (netBytes counter ++ (data.toList ++ rest))).getD (4 + i.val) 0) =
        data := by
      refine Vector.ext fun i hi => ?_
      rw [Vector.getElem_ofFn, Nat.add_comm]
      change (data.toList ++ rest).getD i 0 = _
      have hlength : i < data.toList.length := by simpa using hi
      rw [List.getD_eq_getElem?_getD, List.getElem?_append_left hlength,
        List.getElem?_eq_getElem hlength]
      exact Vector.getElem_toList _
    rw [hdata]
  | control cm => simp only [am, bytes, ofBytes, List.append_assoc, netWord_netBytes, hdrop]
  | route rm =>
    have hdrop4 : ∀ (w w' : Word16) (bytes : List Word8),
        (netBytes w ++ (netBytes w' ++ bytes)).drop 4 = bytes := fun w w' bytes => rfl
    simp only [am, bytes, ofBytes, List.append_assoc, netWord_netBytes, hdrop, hdrop4]

/-- A frame on the air, with its bytes. -/
structure AirFrame where
  source : Word16
  destination : Word16
  length : Word8
  type : AmId
  data : List Word8
  deriving DecidableEq, Repr

/-- The frame that the radio makes of the packet. -/
def Packet.onAir (tos : Word16) (packet : Packet) : AirFrame :=
  ⟨tos, packet.destination, packet.length, packet.type, packet.data.take packet.length.val⟩

/-- The frame as it is heard by a node whose buffer held `stale` behind the payload. -/
def AirFrame.read (stale : List Word8) (f : AirFrame) : Frame :=
  ⟨f.source, f.destination, f.length, .ofBytes f.type (f.data ++ stale)⟩

/-- What the environment answers to the calls of a receive handler, and what is left of
older frames in the buffer that the frame came in. -/
structure AirAnswers where
  answers : Answers
  stale : List Word8
  deriving DecidableEq, Repr

/-- A node's own events, and the radio that reads the packet for a send that is out. -/
inductive AirEvent where
  | own (e : Event)
  | transmit
  deriving DecidableEq, Repr

def airHandle (tos : Word16) (e : AirEvent) (s : State) : Option (State × List AirFrame) :=
  match e with
  | .own e => (handle tos e s).map fun r => (r.1, [])
  | .transmit => if s.pending ≠ [] then some (s, [s.packet.onAir tos]) else none

/-- The nodes of the routing program around radios that read the packets. -/
def air {V : Type} (id : V → Word16) :
    Network V (fun _ => State) (fun _ => AirEvent) (fun _ => AirAnswers) AirFrame where
  init := fun _ => {}
  handle := fun v => airHandle (id v)
  receive := fun v r f s => ((hear (id v) r.answers (f.read r.stale) s).1, [])

abbrev AirConfig (V : Type) := Network.Config (fun _ : V => State) AirFrame

abbrev AirHappening (V : Type) := Network.Event (fun _ : V => AirEvent) fun _ => AirAnswers

/-- The node that an event happens to, and what the event is for it. -/
def happens {V : Type} (c : AirConfig V) : AirHappening V → Option (V × NodeEvent)
  | .act v (.own e) => some (v, .own e)
  | .act v .transmit => some (v, .transmit)
  | .deliver i v r => c.log[i]?.map fun entry => (v, .heard r.answers (entry.2.read r.stale))

/-- A condition on what happens to a node, as one on the steps of the network. -/
def AtNode {V : Type} (id : V → Word16) (P : Word16 → State → NodeEvent → Prop)
    (c : AirConfig V) (e : AirHappening V) : Prop :=
  ∀ p ∈ happens c e, P (id p.1) (c.node p.1) p.2

instance {V : Type} (id : V → Word16) (P : Word16 → State → NodeEvent → Prop)
    [∀ tos s e, Decidable (P tos s e)] (c : AirConfig V) (e : AirHappening V) :
    Decidable (AtNode id P c e) :=
  inferInstanceAs (Decidable (∀ p ∈ happens c e, P (id p.1) (c.node p.1) p.2))

/-- No handler writes over a packet that is out. -/
def Untouched (tos : Word16) (s : State) (e : NodeEvent) : Prop :=
  Disciplined (attempts tos s e) s.buffer

instance decidableDisciplined :
    (as : List Attempt) → (b : Buffer) → Decidable (Disciplined as b)
  | [], _ => .isTrue trivial
  | a :: as, b =>
    have := decidableDisciplined as (a.apply b)
    inferInstanceAs (Decidable (b.pending = [] ∧ Disciplined as (a.apply b)))

instance (tos : Word16) (s : State) (e : NodeEvent) : Decidable (Untouched tos s e) :=
  decidableDisciplined (attempts tos s e) s.buffer

/-- The radio makes such a frame of the packet if it reads it now. -/
def Carries (tos : Word16) (P : Frame → Prop) (b : Buffer) : Prop :=
  b.pending ≠ [] → ∀ stale, P ((b.packet.onAir tos).read stale)

/-- An accepted send is read as its frame. -/
theorem Attempt.apply_onAir {a : Attempt} (h : a.accepted = true) (b : Buffer) (tos : Word16)
    (stale : List Word8) :
    ((a.apply b).packet.onAir tos).read stale = airedBy tos a.addr a.msg := by
  obtain ⟨hfree, hsent⟩ : a.free = true ∧ a.sent = .success := by simpa [accepted] using h
  have hbytes : (a.msg.bytes ++ b.packet.data.drop a.msg.size.val).take a.msg.size.val =
      a.msg.bytes := by
    rw [← a.msg.length_bytes]
    exact List.take_left
  have hread : Msg.ofBytes a.msg.am (a.msg.bytes ++ stale) = a.msg := a.msg.ofBytes_bytes stale
  unfold apply
  simp only [if_pos hfree, hsent, reduceCtorEq, ↓reduceIte, Packet.onAir, AirFrame.read, hbytes,
    hread]
  rfl

theorem carries_applyAll {tos : Word16} {P : Frame → Prop} (as : List Attempt) {b : Buffer}
    (hb : Carries tos P b) (h : Disciplined as b)
    (hframes : ∀ f ∈ as.filterMap (Attempt.frame? tos), P f) :
    Carries tos P (applyAll as b) := by
  induction as generalizing b with
  | nil => exact hb
  | cons a as ih =>
    obtain ⟨hnone, hrest⟩ := h
    refine ih ?_ hrest fun f hf => hframes f ?_
    · intro hout stale
      rw [Attempt.apply_pending, hnone] at hout
      cases haccepted : a.accepted with
      | false => simp [haccepted] at hout
      | true =>
        rw [Attempt.apply_onAir haccepted]
        exact hframes _ (by simp [Attempt.frame?, haccepted])
    · obtain ⟨a', ha', hf⟩ := List.mem_filterMap.mp hf
      exact List.mem_filterMap.mpr ⟨a', List.mem_cons_of_mem a ha', hf⟩

section Network
variable {V : Type} {id : V → Word16}

/-- The same nodes, with every frame read off the air, or ready to be, among those that were
handed over. -/
structure Heeds (id : V → Word16) (d : AirConfig V) (c : Config V) : Prop where
  node : ∀ v, d.node v = c.node v
  log : ∀ u f, (u, f) ∈ d.log → ∀ stale, (u, f.read stale) ∈ c.log
  packet : ∀ v, Carries (id v) (fun f => (v, f) ∈ c.log) (c.node v).buffer

variable [DecidableEq V]

/-- A node moves in the same way on both sides, and broadcasts on one. -/
theorem Heeds.put {d : AirConfig V} {c : Config V} (h : Heeds id d c) {v : V} {t : State}
    {fs : List Frame}
    (hpacket : Carries (id v) (fun f => (v, f) ∈ (c.put v t fs).log) t.buffer) :
    Heeds id (d.put v t []) (c.put v t fs) := by
  have hlog : ∀ entry ∈ c.log, entry ∈ (c.put v t fs).log := fun entry hentry =>
    List.mem_append_left _ hentry
  refine ⟨fun w => ?_, fun u f hf stale => ?_, fun w => ?_⟩
  · by_cases hw : w = v
    · subst hw
      rw [d.put_node_self, c.put_node_self]
    · rw [d.put_node_of_ne _ _ hw, c.put_node_of_ne _ _ hw]
      exact h.node w
  · rw [Network.Config.put_log, List.map_nil, List.append_nil] at hf
    exact hlog _ (h.log u f hf stale)
  · by_cases hw : w = v
    · subst hw
      rw [c.put_node_self]
      exact hpacket
    · rw [c.put_node_of_ne _ _ hw]
      exact fun hout stale => hlog _ (h.packet w hout stale)

/-- A step that leaves the packet alone while a send is out keeps it ready to be read as what
was handed over. -/
theorem Heeds.carries {d : AirConfig V} {c : Config V} (h : Heeds id d c) {v : V} {t : State}
    {fs : List Frame} {as : List Attempt} {marks : Bool}
    (hhandles : Handles (id v) marks (c.node v) as (t, fs))
    (hdisciplined : Disciplined as (c.node v).buffer) :
    Carries (id v) (fun f => (v, f) ∈ (c.put v t fs).log) t.buffer := by
  have hold : Carries (id v) (fun f => (v, f) ∈ (c.put v t fs).log) (c.node v).buffer :=
    fun hout stale => List.mem_append_left _ (h.packet v hout stale)
  have hbuffer : t.buffer = applyAll as (c.node v).buffer := hhandles.buffer
  have hframes : fs = as.filterMap (Attempt.frame? (id v)) := hhandles.frames
  rw [hbuffer]
  refine carries_applyAll as hold hdisciplined fun f hf => ?_
  exact Network.Config.mem_put_log.mpr (.inr ⟨rfl, hframes ▸ hf⟩)

/-- So does every step of a node that leaves its packet alone. -/
theorem Heeds.nodeStep {d : AirConfig V} {c : Config V} (h : Heeds id d c) {v : V} {t : State}
    {fs : List Frame} {e : NodeEvent} (huntouched : Untouched (id v) (c.node v) e)
    (hstep : nodeStep (id v) (c.node v) e = some (t, fs.map .handed)) :
    Heeds id (d.put v t []) (c.put v t fs) := by
  apply h.put
  have hold : ∀ b : Buffer, b.packet = (c.node v).packet →
      (b.pending ≠ [] → (c.node v).pending ≠ []) →
      Carries (id v) (fun f => (v, f) ∈ (c.put v t fs).log) b := by
    intro b hpacket hpending hout stale
    rw [hpacket]
    exact List.mem_append_left _ (h.packet v (hpending hout) stale)
  have heffect := nodeStep_effect hstep
  generalize hout : fs.map Output.handed = out at heffect
  have hframes : frames out = fs := hout ▸ frames_handed fs
  cases heffect with
  | handled he hhandles =>
    rw [frames_handed] at hframes
    subst hframes
    exact h.carries hhandles huntouched
  | relayed hhandles =>
    rw [frames_handed] at hframes
    subst hframes
    exact h.carries hhandles huntouched
  | @sendDone am err ham =>
    refine hold _ rfl fun hsome hnone => hsome ?_
    change ((c.node v).pending.erase am) = []
    rw [hnone]
    rfl
  | transmit => exact hold _ rfl fun hsome => hsome

/-- Where no handler writes over a packet that is out, the nodes behave as in the network
whose frames go out as they were handed over, and every frame on the air, however it is read,
is one that its sender has handed over. -/
theorem air_refines_routing {d : AirConfig V}
    (h : (air id).system.Reachable (AtNode id Untouched) d) :
    ∃ c, (routing id).system.Reachable System.anyStep c ∧ (∀ v, d.node v = c.node v) ∧
      ∀ u f, (u, f) ∈ d.log → ∀ stale, (u, f.read stale) ∈ c.log := by
  have hinvariant : ∃ c, (routing id).system.Reachable System.anyStep c ∧ Heeds id d c := by
    refine h.invariant
      (P := fun d => ∃ c, (routing id).system.Reachable System.anyStep c ∧ Heeds id d c)
      ⟨_, .init, fun v => rfl, by simp [Network.system], fun v hout => absurd rfl hout⟩ ?_
    rintro d e d' ⟨c, hreach, hheeds⟩ huntouched hstep
    obtain ⟨v, a, s, fs, rfl, hhandle, rfl⟩ | ⟨i, v, r, u, f, rfl, hlog, rfl⟩ :=
      (air id).system_step hstep
    · cases a with
      | own e =>
        obtain ⟨⟨t, gs⟩, hrun, hpair⟩ := Option.map_eq_some_iff.mp hhandle
        obtain ⟨rfl, rfl⟩ := Prod.mk.inj hpair
        have hquiet := huntouched _ rfl
        rw [hheeds.node v] at hrun hquiet
        refine ⟨_, hreach.step trivial ((routing id).system_step_act hrun), ?_⟩
        exact hheeds.nodeStep hquiet (Option.map_eq_some_iff.mpr ⟨(t, gs), hrun, rfl⟩)
      | transmit =>
        obtain ⟨hout, hpair⟩ := Option.ite_none_right_eq_some.mp hhandle
        obtain ⟨rfl, rfl⟩ := Prod.mk.inj (Option.some.inj hpair)
        refine ⟨c, hreach, fun w => ?_, fun w g hg stale => ?_, hheeds.packet⟩
        · rw [← hheeds.node w]
          exact Network.Config.put_node_congr (fun _ s => s) rfl _ w
        · rcases Network.Config.mem_put_log.mp hg with hold | ⟨rfl, hnew⟩
          · exact hheeds.log w g hold stale
          · obtain rfl := List.mem_singleton.mp hnew
            rw [hheeds.node w] at hout ⊢
            exact hheeds.packet w hout stale
    · have hquiet := huntouched (v, .heard r.answers (f.read r.stale)) (by simp [happens, hlog])
      have hmem := hheeds.log u f (List.mem_of_getElem? hlog) r.stale
      obtain ⟨j, hj⟩ := List.getElem?_of_mem hmem
      rw [hheeds.node v] at hquiet
      have hnext := hheeds.nodeStep hquiet rfl
      refine ⟨_, hreach.step (e := .deliver j v r.answers) trivial
        ((routing id).system_step_deliver hj rfl), ?_⟩
      simp only [air, hheeds.node v]
      exact ⟨hnext.node, hnext.log, hnext.packet⟩
  obtain ⟨c, hreach, hheeds⟩ := hinvariant
  exact ⟨c, hreach, hheeds.node, hheeds.log⟩

end Network

def receiving : AirAnswers := ⟨granting, [1, 2, 3]⟩

/-- The beacon of node 1 reaches node 2, which passes it on, and then a data frame. -/
def relayed : List (AirHappening Bool) :=
  [.act false (.own .booted), .act false (.own (.startDone .success)),
    .act true (.own .booted), .act true (.own (.startDone .success)),
    .act false (.own (.timer0Fired .success)), .act false .transmit,
    .deliver 0 true receiving, .act false (.own (.sendDone .route .success)),
    .act true (.own (.timer1Fired .success)), .act true .transmit,
    .act true (.own (.sendDone .route .success)),
    .act true (.own (.sourceData 9 2 sizeofBeaconMsg sample granting)), .act true .transmit,
    .deliver 2 false receiving]

theorem air_refines_routing_relayed :
    ∃ d, (air fun far => if far then 2 else 1).system.run relayed = some d ∧
      (d.node false).recvData = [(2, 100, 7)] ∧
      ∃ c, (routing fun far => if far then 2 else 1).system.Reachable System.anyStep c ∧
        (∀ v, d.node v = c.node v) ∧
        ∀ u f, (u, f) ∈ d.log → ∀ stale, (u, f.read stale) ∈ c.log := by
  have hrun : (air fun far => if far then 2 else 1).system.run relayed = some _ := rfl
  exact ⟨_, hrun, rfl, air_refines_routing
    (System.reachable_of_run relayed (by decide +kernel) hrun)⟩

end WsnContest.Routing
