import WsnContest.Car.Held

/-! From the reader back to the PC. Relays repeat the readings they hear, and each other, and
overwrite their packets as the car does. Whatever they do, a data frame is a pair that the
car once held, and an answer to its own query if no key disturbs the car. -/
namespace WsnContest.CommandChain
open Tinyos Lib Car
variable {ι : Type}

/-- What the car has done so far. -/
def outputs (c : Config ι) : List CarNode.Output := (c.node .car).2

theorem outputs_grow [DecidableEq ι] {n : ℕ} {c c' : Config ι}
    {e : Network.Event (PartyEvent (ι := ι)) PartyAnswer}
    (h : (network ι n).system.step c e = some c') : outputs c <+: outputs c' := by
  obtain ⟨v, e, s, fs, rfl, hhandle, rfl⟩ | ⟨i, v, r, u, f, rfl, -, rfl⟩ :=
    (network ι n).system_step h
  · cases v with
    | pc | pcNode | relay i =>
      rw [outputs, outputs, c.put_node_of_ne s fs (by simp)]
    | car =>
      cases e with
      | transmit =>
        obtain ⟨p, -, hpair⟩ := Option.map_eq_some_iff.mp hhandle
        obtain ⟨rfl, rfl⟩ := Prod.mk.inj hpair
        rw [outputs, outputs, c.put_node_self]
      | node e =>
        obtain ⟨r, -, hpair⟩ := Option.map_eq_some_iff.mp hhandle
        obtain ⟨rfl, rfl⟩ := Prod.mk.inj hpair
        rw [outputs, outputs, c.put_node_self]
        exact List.prefix_append _ _
  · rw [outputs, outputs, Network.Config.mark_node]
    cases v with
    | pc | pcNode | relay i => rw [c.put_node_of_ne _ _ (by simp)]
    | car =>
      rw [c.put_node_self]
      cases f with
      | serial len msg | data len msg => exact List.prefix_rfl
      | car len msg => exact List.prefix_append _ _

/-- As `Sound`, but the order in which the car obeys is left open. -/
def Heeds (n : ℕ) (all : List Char) : (v : Party ι) → PartyState v → Prop
  | .pc, s => Sound n all (.pc : Party ι) s
  | .pcNode, s => Sound n all (.pcNode : Party ι) s
  | .relay i, s => Sound n all (.relay i) s
  | .car, s => ∀ msg ∈ obeyed s.2, msg ∈ commands n all

theorem heeds_iff_sound {n : ℕ} {all : List Char} {v : Party ι} (hv : v ≠ .car)
    (s : PartyState v) : Heeds n all v s ↔ Sound n all v s := by
  cases v with
  | pc | pcNode | relay i => exact .rfl
  | car => exact absurd rfl hv

theorem obeyed_receive {len : Word8} {msg : TestCarMsg} {irqs : List (List CarP.Rx)}
    (s : CarNode.State) : ∀ m ∈ obeyed (CarNode.receive len msg irqs s).2, m = msg := by
  have hobey : obeyed (CarNode.obey msg.cmd irqs { s with seq := msg.seq }).2 = [] := by
    by_cases hreset : msg.cmd = Cmd.r_.code
    · rw [hreset]
      rfl
    · exact (Unheard.obey hreset irqs _).obeyed
  unfold CarNode.receive
  split
  · split
    · have hcons : obeyed (.obeyed msg ::
          (CarNode.obey msg.cmd irqs { s with seq := msg.seq }).2) = [msg] :=
        congrArg (msg :: ·) hobey
      dsimp only
      rw [hcons]
      exact fun m hm => List.mem_singleton.mp hm
    · exact nofun
  · exact nofun

section Typed
variable {n : ℕ} {all : List Char}

theorem heeds_handle {v : Party ι} {e : PartyEvent v} {s s' : PartyState v} {fs : List Frame}
    (h : Heeds n all v s) (hhandle : handle v e s = some (s', fs))
    (htext : typedBy v s' <+: all) :
    Heeds n all v s' ∧ ∀ f ∈ fs, Genuine (commands n all) f := by
  by_cases hv : v ≠ .car
  · rw [heeds_iff_sound hv] at h ⊢
    exact sound_handle h hhandle htext
  · obtain rfl := not_not.mp hv
    cases e with
    | transmit =>
      obtain ⟨p, -, hpair⟩ := Option.map_eq_some_iff.mp hhandle
      obtain ⟨rfl, rfl⟩ := Prod.mk.inj hpair
      exact ⟨h, by simp [Genuine]⟩
    | node e =>
      obtain ⟨r, hnode, hpair⟩ := Option.map_eq_some_iff.mp hhandle
      obtain ⟨rfl, rfl⟩ := Prod.mk.inj hpair
      have hsame : obeyed (s.2 ++ r.2) = obeyed s.2 := by
        rw [obeyed_append, (Unheard.handle hnode).obeyed, List.append_nil]
      exact ⟨fun m hm => h m (hsame ▸ hm), by simp⟩

theorem heeds_receive {v : Party ι} {r : PartyAnswer v} {s : PartyState v} {f : Frame}
    (h : Heeds n all v s) (hf : Genuine (commands n all) f) :
    Heeds n all v (receive v r f s).1 ∧ (receive v r f s).2 = [] := by
  cases v with
  | pc => exact ⟨h, rfl⟩
  | pcNode =>
    cases f with
    | serial len msg => exact ⟨loaded_pcNode_receive h hf r len, rfl⟩
    | car len msg | data len msg => exact ⟨h, rfl⟩
  | relay i =>
    cases f with
    | serial len msg => exact ⟨h, rfl⟩
    | car len msg => exact ⟨loaded_relay_receive h hf r len, rfl⟩
    | data len msg =>
      have hpacket := Relay.dataReceive_carPacket r len msg s
      exact ⟨fun hout => hpacket ▸ h (hpacket ▸ hout), rfl⟩
  | car =>
    cases f with
    | serial len msg | data len msg => exact ⟨h, rfl⟩
    | car len msg =>
      refine ⟨fun m hm => ?_, rfl⟩
      rcases List.mem_append.mp (obeyed_append _ _ ▸ hm) with hold | hnew
      · exact h m hold
      · rw [obeyed_receive s.1 m hnew]
        exact hf

end Typed

/-- Every key the car obeys was typed, also after it was told to forget its number. -/
theorem obeyed_typed [DecidableEq ι] {n : ℕ} {c : Config ι}
    (h : (network ι n).system.Reachable System.anyStep c) :
    ∀ msg ∈ obeyed (outputs c), msg ∈ commands n (typed c) := by
  refine (Network.node_invariant (P := Heeds n (typed c))
    (Q := fun _ f => Genuine (commands n (typed c)) f) ?_ ?_ ?_ (h.of_history typed_grows)).1 .car
  · intro v
    by_cases hv : v ≠ .car
    · exact (heeds_iff_sound hv _).mpr (sound_init n (typed c) v)
    · obtain rfl := not_not.mp hv
      exact fun _ hm => absurd hm List.not_mem_nil
  · intro c' v e s fs hs hallowed hhandle
    apply heeds_handle hs hhandle
    have htext := hallowed _ ((network ι n).system_step_act hhandle)
    cases v with
    | pc => simpa [typed] using htext
    | pcNode | relay i | car => exact List.nil_prefix
  · intro c' i v r u f hs hf _ _
    obtain ⟨hheeds, hout⟩ := heeds_receive (r := r) hs hf
    refine ⟨hheeds, ?_⟩
    rw [show ((network ι n).receive v r f (c'.node v)).2 = [] from hout]
    simp

/-- A data frame has its length and holds something good. -/
def Airs (good : TestDataMsg → Prop) : Frame → Prop
  | .data len msg => len = sizeofTestDataMsg ∧ good msg
  | .serial _ _ | .car _ _ => True

/-- Whoever has a data frame to send has a good one. -/
def Sends (good : TestDataMsg → Prop) : (v : Party ι) → PartyState v → Prop
  | .relay _, s => Carries good s.dataPacket
  | .car, s => Carries good s.1.packet
  | .pc, _ | .pcNode, _ => True

section Carrying
variable {good : TestDataMsg → Prop}

theorem Airs.mono {f : Frame} (h : Airs good f) {more : TestDataMsg → Prop}
    (hmore : ∀ m, good m → more m) : Airs more f := by
  cases f with
  | serial len msg | car len msg => trivial
  | data len msg => exact h.imp_right (hmore _)

theorem Sends.mono {v : Party ι} {s : PartyState v} (h : Sends good v s)
    {more : TestDataMsg → Prop} (hmore : ∀ m, good m → more m) : Sends more v s := by
  cases v with
  | pc | pcNode => trivial
  | relay i => exact Carries.mono h hmore
  | car => exact Carries.mono h hmore

theorem airs_onAir {b : MessageBuffer TestDataMsg} (h : Carries good b) {p : Word8 × TestDataMsg}
    (hair : b.onAir = some p) : ∀ f ∈ [Frame.data p.1 p.2], Airs good f := by
  obtain ⟨hout, rfl⟩ := MessageBuffer.onAir_eq hair
  intro f hf
  rw [List.mem_singleton.mp hf]
  exact h hout

theorem carries_dataReceive {s : Relay.State} (h : Carries good s.dataPacket) (sent : ErrorT)
    {len : Word8} {msg : TestDataMsg} (hmsg : good msg) :
    Carries good (Relay.dataReceive sent len msg s).dataPacket := by
  by_cases hlen : len = sizeofTestDataMsg
  · subst hlen
    cases hbusy : s.busyRadio with
    | true =>
      rw [Relay.dataReceive_busy sent hbusy]
      exact h.fill hmsg
    | false =>
      rw [Relay.dataReceive_idle sent hbusy]
      exact h.send hmsg sent
  · rw [Relay.dataReceive_otherSize sent hlen]
    exact h

/-- Of the car only what it sends is told here. -/
theorem sends_handle {v : Party ι} {e : PartyEvent v} {s t : PartyState v} {fs : List Frame}
    (h : Sends good v s) (hhandle : handle v e s = some (t, fs)) :
    (v ≠ .car → Sends good v t) ∧ ∀ f ∈ fs, Airs good f := by
  cases v with
  | pc =>
    obtain ⟨rfl, rfl⟩ := Prod.mk.inj (Option.some.inj hhandle)
    refine ⟨fun _ => trivial, fun f hf => ?_⟩
    obtain ⟨cmd, -, rfl⟩ := mem_read hf
    trivial
  | pcNode =>
    refine ⟨fun _ => trivial, ?_⟩
    cases e with
    | transmit =>
      obtain ⟨p, -, hpair⟩ := Option.map_eq_some_iff.mp hhandle
      obtain ⟨-, rfl⟩ := Prod.mk.inj hpair
      simp [Airs]
    | sendDone =>
      obtain ⟨u, -, hpair⟩ := Option.map_eq_some_iff.mp hhandle
      obtain ⟨-, rfl⟩ := Prod.mk.inj hpair
      exact nofun
  | relay i =>
    obtain (_ | _) | (_ | _) := e
    · obtain ⟨p, -, hpair⟩ := Option.map_eq_some_iff.mp hhandle
      obtain ⟨rfl, rfl⟩ := Prod.mk.inj hpair
      exact ⟨fun _ => h, by simp [Airs]⟩
    · obtain ⟨u, hdone, hpair⟩ := Option.map_eq_some_iff.mp hhandle
      obtain ⟨rfl, rfl⟩ := Prod.mk.inj hpair
      obtain ⟨-, packet, -, rfl⟩ := Relay.sendDone_eq hdone
      exact ⟨fun _ => h, nofun⟩
    · obtain ⟨p, hair, hpair⟩ := Option.map_eq_some_iff.mp hhandle
      obtain ⟨rfl, rfl⟩ := Prod.mk.inj hpair
      exact ⟨fun _ => h, airs_onAir h hair⟩
    · obtain ⟨u, hdone, hpair⟩ := Option.map_eq_some_iff.mp hhandle
      obtain ⟨rfl, rfl⟩ := Prod.mk.inj hpair
      obtain ⟨packet, hpacket, rfl⟩ := Option.map_eq_some_iff.mp hdone
      exact ⟨fun _ => Carries.done h hpacket, nofun⟩
  | car =>
    refine ⟨fun hcar => absurd rfl hcar, ?_⟩
    cases e with
    | transmit =>
      obtain ⟨p, hair, hpair⟩ := Option.map_eq_some_iff.mp hhandle
      obtain ⟨-, rfl⟩ := Prod.mk.inj hpair
      exact airs_onAir h hair
    | node e =>
      obtain ⟨r, -, hpair⟩ := Option.map_eq_some_iff.mp hhandle
      obtain ⟨-, rfl⟩ := Prod.mk.inj hpair
      exact nofun

theorem sends_receive {v : Party ι} {r : PartyAnswer v} {s : PartyState v} {f : Frame}
    (h : Sends good v s) (hf : Airs good f) :
    (v ≠ .car → Sends good v (receive v r f s).1) ∧ (receive v r f s).2 = [] := by
  cases v with
  | pc => exact ⟨fun _ => trivial, rfl⟩
  | pcNode => cases f <;> exact ⟨fun _ => trivial, rfl⟩
  | car => cases f <;> exact ⟨fun hcar => absurd rfl hcar, rfl⟩
  | relay i =>
    cases f with
    | serial len msg => exact ⟨fun _ => h, rfl⟩
    | data len msg => exact ⟨fun _ => carries_dataReceive h r hf.2, rfl⟩
    | car len msg =>
      refine ⟨fun _ => ?_, rfl⟩
      have hsame : (Relay.receive r len msg s).dataPacket = s.dataPacket :=
        Relay.receive_dataPacket ..
      have hkept : Carries good s.dataPacket := h
      rw [← hsame] at hkept
      exact hkept

end Carrying

/-- What the car never sends otherwise, nobody does. -/
theorem data_frames [DecidableEq ι] {n : ℕ} {good : List CarNode.Output → TestDataMsg → Prop}
    (hmono : ∀ {out more}, out <+: more → ∀ m, good out m → good more m)
    {allowed : Config ι → Network.Event (PartyEvent (ι := ι)) PartyAnswer → Prop}
    (hcar : ∀ c, (network ι n).system.Reachable allowed c →
      Carries (good (outputs c)) (c.node .car).1.packet)
    {c : Config ι} (h : (network ι n).system.Reachable allowed c) :
    (∀ v, Sends (good (outputs c)) v (c.node v)) ∧
      ∀ u f, (u, f) ∈ c.log → Airs (good (outputs c)) f := by
  induction h with
  | init =>
    refine ⟨fun v => ?_, nofun⟩
    cases v with
    | pc | pcNode => trivial
    | relay i | car => exact fun hout => absurd rfl hout
  | @step c c' e hreach hallowed hstep ih =>
    have hmore := hmono (outputs_grow hstep)
    have hnext := hcar c' (hreach.step hallowed hstep)
    obtain ⟨hnode, hlog⟩ : (∀ v, Sends (good (outputs c')) v (c.node v)) ∧
        ∀ u f, (u, f) ∈ c.log → Airs (good (outputs c')) f :=
      ⟨fun v => (ih.1 v).mono hmore, fun u f hf => (ih.2 u f hf).mono hmore⟩
    have hput : ∀ {v : Party ι} {s : PartyState v} {fs : List Frame},
        c'.node = (c.put v s fs).node → c'.log = (c.put v s fs).log →
        (v ≠ .car → Sends (good (outputs c')) v s) →
        (∀ f ∈ fs, Airs (good (outputs c')) f) →
        (∀ w, Sends (good (outputs c')) w (c'.node w)) ∧
          ∀ u f, (u, f) ∈ c'.log → Airs (good (outputs c')) f := by
      intro v s fs hnodes hentries hs hfs
      constructor
      · intro w
        by_cases hw : w = .car
        · subst hw
          exact hnext
        · rw [hnodes]
          by_cases hv : w = v
          · subst hv
            rw [c.put_node_self]
            exact hs hw
          · rw [c.put_node_of_ne s fs hv]
            exact hnode w
      · intro u f hmem
        rw [hentries] at hmem
        rcases Network.Config.mem_put_log.mp hmem with hold | ⟨-, hf⟩
        · exact hlog u f hold
        · exact hfs f hf
    obtain ⟨v, e, s, fs, rfl, hhandle, rfl⟩ | ⟨i, v, r, u, f, rfl, hi, rfl⟩ :=
      (network ι n).system_step hstep
    · obtain ⟨hs, hfs⟩ := sends_handle (hnode v) hhandle
      exact hput rfl rfl hs hfs
    · have hf := hlog u f (List.mem_of_getElem? hi)
      obtain ⟨hs, hnone⟩ := sends_receive (r := r) (hnode v) hf
      refine hput rfl rfl hs ?_
      rw [show ((network ι n).receive v r f (c.node v)).2 = [] from hnone]
      exact nofun

/-- Whatever is lost, repeated, delayed or overwritten on the way, and whatever is typed: a
data frame, of the car or of a relay, is complete, and a pair that the car held at one
moment, its tag asked for by a typed key and its number read by the driver, as far as the
car had any. -/
theorem readings_traced [DecidableEq ι] {n : ℕ} {c : Config ι}
    (h : (network ι n).system.Reachable System.anyStep c) {v : Party ι} {len : Word8}
    {m : TestDataMsg} (hair : (v, .data len m) ∈ c.log) :
    len = sizeofTestDataMsg ∧ ∃ pre, pre <+: outputs c ∧ m = CarNode.held pre ∧
      (m.id = 0 ∨ ∃ key ∈ typed c, ∃ cmd tag, keyCmd key = some cmd ∧
        CarNode.Cmd.tag? cmd = some tag ∧ m.id = CarNode.label tag) ∧
      (m.data = 0 ∨ .driver (.readDone .success m.data) ∈ pre) := by
  have hcar : ∀ c, (network ι n).system.Reachable System.anyStep c →
      Carries (CarNode.Once (outputs c)) (c.node .car).1.packet := fun c hc =>
    (CarNode.honest_of_reachable (car_reachable_any hc)).packet
  obtain ⟨hlen, pre, hpre, rfl⟩ := (data_frames CarNode.Once.mono hcar h).2 _ _ hair
  refine ⟨hlen, pre, hpre, rfl, (CarNode.held_id pre).imp_right ?_, CarNode.held_data pre⟩
  rintro ⟨msg, tag, hmem, htag, hid⟩
  have hobeyed : msg ∈ obeyed (outputs c) := by
    apply List.mem_filterMap.mpr
    exact ⟨.obeyed msg, hpre.subset hmem, rfl⟩
  obtain ⟨-, -, -, key, hkey, cmd, hcmd, hcode⟩ := mem_commands (obeyed_typed h msg hobeyed)
  refine ⟨key, hkey, cmd, tag, hcmd, ?_, hid⟩
  rw [CarNode.tagOf, hcode, Cmd.ofCode?_code] at htag
  exact htag

/-- The key `1` is typed, and a relay repeats the answer. -/
def oneQuery : List (Network.Event (PartyEvent (ι := Unit)) PartyAnswer) :=
  [.act .car (.node (.startDone .success)), .act .car (.node (.granted [])), .act .pc '1',
    .deliver 0 .pcNode ErrorT.success, .act .pcNode RadioEvent.transmit, .deliver 1 .car [],
    .act .car (.node (.granted [⟨255, 0⟩, ⟨255, 0⟩, ⟨0, 0⟩, ⟨0, 0⟩])),
    .act .car (.node (.rxDone ⟨0, 0⟩)), .act .car (.node (.rxDone ⟨0, 0⟩)),
    .act .car (.node (.rxDone ⟨0, 0⟩)), .act .car (.node (.rxDone ⟨5, 0⟩)),
    .act .car (.node (.recvTask [] .success)), .act .car .transmit,
    .deliver 2 (.relay ()) ErrorT.success, .act (.relay ()) (RelayEvent.data .transmit)]

/-- The next key changes the tag of the reading that is still being repeated. -/
theorem readings_traced_mixed :
    ∃ c : Config Unit, (.car, .data sizeofTestDataMsg ⟨102, 5⟩) ∈ c.log ∧
      ∃ pre, pre <+: outputs c ∧ ⟨102, 5⟩ = CarNode.held pre ∧
        (∃ key ∈ typed c, ∃ cmd tag, keyCmd key = some cmd ∧
          CarNode.Cmd.tag? cmd = some tag ∧ 102 = CarNode.label tag) ∧
        .driver (.readDone .success 5) ∈ pre := by
  let next : List (Network.Event (PartyEvent (ι := Unit)) PartyAnswer) :=
    [.act .pc '2', .deliver 4 .pcNode ErrorT.success, .act .pcNode RadioEvent.transmit,
      .deliver 5 .car [], .act .car (.node (.resendTimerFired .success)), .act .car .transmit]
  obtain ⟨c, hrun, hair⟩ : ∃ c, (network Unit 1).system.run (oneQuery ++ next) = some c ∧
      (.car, .data sizeofTestDataMsg ⟨102, 5⟩) ∈ c.log := ⟨_, rfl, by decide⟩
  have hreach := System.reachable_of_run (oneQuery ++ next) (System.allowedFrom_any _ _ _) hrun
  obtain ⟨-, pre, hpre, hheld, hid, hdata⟩ := readings_traced hreach hair
  exact ⟨c, hair, pre, hpre, hheld, hid.resolve_left (by decide), hdata.resolve_left (by decide)⟩

/-- If no key disturbs the car, every data frame is the answer to the query for its tag. -/
theorem readings_answered [DecidableEq ι] {n : ℕ} {c : Config ι}
    (h : (network ι n).system.Reachable (AtCar CarNode.Undisturbed) c) {v : Party ι} {len : Word8}
    {m : TestDataMsg} (hair : (v, .data len m) ∈ c.log) :
    len = sizeofTestDataMsg ∧ (m.id, m.data) ∈ (CarNode.exchange (outputs c)).done := by
  have hcar : ∀ c, (network ι n).system.Reachable (AtCar CarNode.Undisturbed) c →
      Carries (CarNode.Answered (outputs c)) (c.node .car).1.packet := fun c hc =>
    (CarNode.answering_of_reachable (car_reachable hc)).packet
  exact (data_frames CarNode.Answered.mono hcar h).2 _ _ hair

instance (c : Config ι) (e : Network.Event (PartyEvent (ι := ι)) PartyAnswer) :
    Decidable (AtCar CarNode.Undisturbed c e) :=
  match hinput : carInput c e with
  | none => .isTrue fun _ hx => nomatch hinput ▸ hx
  | some y => decidable_of_iff (CarNode.Undisturbed (c.node .car) y)
      ⟨fun hy _ hx => Option.some.inj (hinput ▸ hx) ▸ hy, fun hall => hall y hinput⟩

theorem readings_answered_once :
    ∃ c : Config Unit, (.relay (), .data sizeofTestDataMsg ⟨101, 5⟩) ∈ c.log ∧
      (101, 5) ∈ (CarNode.exchange (outputs c)).done := by
  have hallowed : (network Unit 1).system.AllowedFrom (AtCar CarNode.Undisturbed)
      (network Unit 1).system.init oneQuery := by decide +kernel
  obtain ⟨c, hrun, hair⟩ : ∃ c, (network Unit 1).system.run oneQuery = some c ∧
      (.relay (), .data sizeofTestDataMsg ⟨101, 5⟩) ∈ c.log := ⟨_, rfl, by decide⟩
  have hreach := System.reachable_of_run oneQuery hallowed hrun
  exact ⟨c, hair, (readings_answered hreach hair).2⟩

end WsnContest.CommandChain
