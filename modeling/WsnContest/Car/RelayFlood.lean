import WsnContest.Car.Relay
import WsnContest.Lib.Network

/-! Relays in range of each other. With every send accepted a relay never marks itself
busy and never remembers a number, so whatever it repeats another relay repeats
again: one command or reading is enough to keep two relays busy for ever. A single
relay repeats each frame at most once. -/
namespace WsnContest.RelayFlood
open Tinyos Lib Car

/-- The relays, and `PcNodeSend` and `CarNode`, of which only the frames matter that
they put on the air. -/
inductive Station (ι : Type) where
  | source
  | relay (i : ι)
  deriving DecidableEq

/-- The two senders of a relay. -/
inductive Sender where
  | car
  | data
  deriving DecidableEq, Repr

variable {ι : Type}

/-- The source has a list of frames to originate. -/
abbrev StationState : Station ι → Type
  | .source => List Frame
  | .relay _ => Relay.State

abbrev StationEvent : Station ι → Type
  | .source => Unit
  | .relay _ => Sender

/-- The result of the send that a handler may call. -/
abbrev StationAnswer : Station ι → Type := fun _ => ErrorT

/-- The source originates its next frame; the radio of a relay transmits the buffer of
an accepted send and signals its `sendDone`. -/
def handle : (v : Station ι) → StationEvent v → StationState v →
    Option (StationState v × List Frame)
  | .source, _, [] => none
  | .source, _, f :: left => some (left, [f])
  | .relay _, .car, s => s.carPacket.onAir.bind fun p =>
      (Relay.sendDone s).map fun s => (s, [.car p.1 p.2])
  | .relay _, .data, s => s.dataPacket.onAir.bind fun p =>
      (Relay.dataSendDone s).map fun s => (s, [.data p.1 p.2])

def receive : (v : Station ι) → StationAnswer v → Frame → StationState v →
    StationState v × List Frame
  | .relay _, sent, .car len msg, s => (Relay.receive sent len msg s, [])
  | .relay _, sent, .data len msg, s => (Relay.dataReceive sent len msg s, [])
  | _, _, _, s => (s, [])

/-- The relays `ι` with a source that originates `frames`. -/
def network (ι : Type) (frames : List Frame) :
    Network (Station ι) StationState StationEvent StationAnswer Frame where
  init
    | .source => frames
    | .relay _ => {}
  handle := handle
  receive := receive

abbrev Config (ι : Type) := Network.Config (StationState (ι := ι)) Frame

/-- Every send is accepted, and a frame reaches each other station at most once. -/
def OnceEach (c : Config ι) : Network.Event (StationEvent (ι := ι)) StationAnswer → Prop
  | .act _ _ => True
  | .deliver i v sent => sent = .success ∧ (i, v) ∉ c.delivered ∧
      ∀ entry ∈ c.log[i]?, entry.1 ≠ v

/-- A relay transmits. -/
def Repeats : Network.Event (StationEvent (ι := ι)) StationAnswer → Prop
  | .act (.relay _) _ => True
  | _ => False

/-- However the frames are delivered, the relays transmit finitely often. -/
def Terminates (ι : Type) [DecidableEq ι] (frames : List Frame) : Prop :=
  ∀ run : (network ι frames).system.InfiniteRun OnceEach, {n | Repeats (run.event n)}.Finite

/-- A frame that an idle relay repeats. -/
def Spreads : Frame → Prop
  | .serial _ _ => False
  | .car len msg => len = sizeofTestCarMsg ∧ 0 < msg.seq
  | .data len _ => len = sizeofTestDataMsg

/-- A relay of which no send has failed. -/
structure Open (s : Relay.State) : Prop where
  busyRadio : s.busyRadio = false
  pktID : s.pktID = 0

/-- A relay whose radio has a frame to repeat. -/
def Loaded (s : Relay.State) : Prop :=
  s.carPacket.outstanding ≠ 0 ∧ s.carPacket.length = sizeofTestCarMsg ∧
      0 < s.carPacket.payload.seq ∨
    s.dataPacket.outstanding ≠ 0 ∧ s.dataPacket.length = sizeofTestDataMsg

section Relays
variable {s : Relay.State}

theorem Open.threshold (h : Open s) (rm : TestCarMsg) : Relay.threshold rm s = 0 := by
  unfold Relay.threshold
  rw [h.pktID]
  exact ite_self 0

theorem Open.receive (h : Open s) (i : ι) (f : Frame) :
    Open (receive (.relay i) .success f s).1 := by
  cases f with
  | serial len msg => exact h
  | car len msg =>
    by_cases hlen : len = sizeofTestCarMsg
    · subst hlen
      by_cases hnew : Relay.threshold msg s < msg.seq
      · refine ⟨?_, ?_⟩ <;> simp only [RelayFlood.receive, Relay.receive_idle _ hnew h.busyRadio]
        · rfl
        · exact h.threshold msg
      · refine ⟨?_, ?_⟩ <;> simp only [RelayFlood.receive, Relay.receive_old _ hnew]
        · exact h.busyRadio
        · exact h.threshold msg
    · simp only [RelayFlood.receive, Relay.receive_otherSize _ hlen]
      exact h
  | data len msg =>
    by_cases hlen : len = sizeofTestDataMsg
    · subst hlen
      refine ⟨?_, ?_⟩ <;> simp only [RelayFlood.receive, Relay.dataReceive_idle _ h.busyRadio]
      · rfl
      · exact h.pktID
    · simp only [RelayFlood.receive, Relay.dataReceive_otherSize _ hlen]
      exact h

theorem Open.loaded (h : Open s) (i : ι) {f : Frame} (hf : Spreads f) :
    Loaded (RelayFlood.receive (.relay i) .success f s).1 := by
  cases f with
  | serial len msg => exact hf.elim
  | car len msg =>
    obtain ⟨rfl, hseq⟩ := hf
    have hnew : Relay.threshold msg s < msg.seq := (h.threshold msg).symm ▸ hseq
    left
    simp only [RelayFlood.receive, Relay.receive_idle _ hnew h.busyRadio]
    exact ⟨Nat.succ_ne_zero _, rfl, hseq⟩
  | data len msg =>
    obtain rfl := hf
    right
    simp only [RelayFlood.receive, Relay.dataReceive_idle _ h.busyRadio]
    exact ⟨Nat.succ_ne_zero _, rfl⟩

theorem handle_car (i : ι) (s : Relay.State) :
    handle (.relay i) .car s =
      if s.carPacket.outstanding ≠ 0 then
        some ({ s with
            busyRadio := false
            carPacket := { s.carPacket with outstanding := s.carPacket.outstanding - 1 } },
          [.car s.carPacket.length s.carPacket.payload])
      else none := by
  simp only [handle, MessageBuffer.onAir, Relay.sendDone, MessageBuffer.done]
  split <;> rfl

theorem handle_data (i : ι) (s : Relay.State) :
    handle (.relay i) .data s =
      if s.dataPacket.outstanding ≠ 0 then
        some ({ s with
            busyRadio := false
            dataPacket := { s.dataPacket with outstanding := s.dataPacket.outstanding - 1 } },
          [.data s.dataPacket.length s.dataPacket.payload])
      else none := by
  simp only [handle, MessageBuffer.onAir, Relay.dataSendDone, MessageBuffer.done]
  split <;> rfl

theorem Loaded.transmits (h : Loaded s) (i : ι) :
    ∃ e t f, handle (.relay i) e s = some (t, [f]) ∧ Spreads f := by
  obtain ⟨hout, hlen, hseq⟩ | ⟨hout, hlen⟩ := h
  · exact ⟨.car, _, _, (handle_car i s).trans (if_pos hout), hlen, hseq⟩
  · exact ⟨.data, _, _, (handle_data i s).trans (if_pos hout), hlen⟩

/-- The sends that the radio still has to transmit. -/
def waiting (s : Relay.State) : ℕ := s.carPacket.outstanding + s.dataPacket.outstanding

theorem transmitted {i : ι} {e : Sender} {t : Relay.State} {fs : List Frame}
    (h : handle (.relay i) e s = some (t, fs)) :
    t.busyRadio = false ∧ t.pktID = s.pktID ∧ fs.length = 1 ∧ waiting t + 1 = waiting s := by
  cases e with
  | car =>
    rw [handle_car] at h
    obtain ⟨hout, hpair⟩ := Option.ite_none_right_eq_some.mp h
    obtain ⟨rfl, rfl⟩ := Prod.mk.inj (Option.some.inj hpair)
    refine ⟨rfl, rfl, rfl, ?_⟩
    simp only [waiting]
    omega
  | data =>
    rw [handle_data] at h
    obtain ⟨hout, hpair⟩ := Option.ite_none_right_eq_some.mp h
    obtain ⟨rfl, rfl⟩ := Prod.mk.inj (Option.some.inj hpair)
    refine ⟨rfl, rfl, rfl, ?_⟩
    simp only [waiting]
    omega

/-- A frame makes an open relay send at most once, and only if it spreads. -/
theorem Open.waiting_receive (h : Open s) (i : ι) (f : Frame) :
    waiting (RelayFlood.receive (.relay i) .success f s).1 = waiting s ∨
      Spreads f ∧ waiting (RelayFlood.receive (.relay i) .success f s).1 = waiting s + 1 := by
  cases f with
  | serial len msg => exact .inl rfl
  | car len msg =>
    by_cases hlen : len = sizeofTestCarMsg
    · subst hlen
      by_cases hnew : Relay.threshold msg s < msg.seq
      · right
        simp only [RelayFlood.receive, Relay.receive_idle _ hnew h.busyRadio]
        refine ⟨⟨rfl, h.threshold msg ▸ hnew⟩, ?_⟩
        simp only [waiting, MessageBuffer.send_outstanding_success]
        omega
      · left
        simp only [RelayFlood.receive, Relay.receive_old _ hnew]
        rfl
    · left
      simp only [RelayFlood.receive, Relay.receive_otherSize _ hlen]
  | data len msg =>
    by_cases hlen : len = sizeofTestDataMsg
    · subst hlen
      right
      simp only [RelayFlood.receive, Relay.dataReceive_idle _ h.busyRadio]
      exact ⟨rfl, rfl⟩
    · left
      simp only [RelayFlood.receive, Relay.dataReceive_otherSize _ hlen]

end Relays

/-- No relay has a send that failed behind it. -/
def Fine : (v : Station ι) → StationState v → Prop
  | .source, _ => True
  | .relay _, s => Open s

theorem Fine.handle {v : Station ι} {e : StationEvent v} {s t : StationState v} {fs : List Frame}
    (hs : Fine v s) (h : handle v e s = some (t, fs)) : Fine v t := by
  cases v with
  | source => trivial
  | relay i =>
    obtain ⟨hbusy, hpktID, -⟩ := transmitted h
    exact ⟨hbusy, hpktID.trans hs.pktID⟩

theorem Fine.receive {v : Station ι} {s : StationState v} (hs : Fine v s) (f : Frame) :
    Fine v (receive v .success f s).1 := by
  cases v with
  | source => trivial
  | relay i => exact Open.receive hs i f

variable [DecidableEq ι] {frames : List Frame}

theorem fine_of_reachable {c : Config ι} (h : (network ι frames).system.Reachable OnceEach c)
    (v : Station ι) : Fine v (c.node v) := by
  refine (Network.node_invariant (P := Fine) (Q := fun _ _ => True) ?_ ?_ ?_ h).1 v
  · intro v
    cases v with
    | source => trivial
    | relay i => exact ⟨rfl, rfl⟩
  · intro c v e s fs hs _ hhandle
    exact ⟨hs.handle hhandle, fun _ _ => trivial⟩
  · rintro c k v sent u f hs - ⟨rfl, -⟩ -
    exact ⟨hs.receive f, fun _ _ => trivial⟩

/-! Nothing that spreads is ever originated. -/

/-- Nothing to send that spreads, and nothing to transmit. -/
def Silent : (v : Station ι) → StationState v → Prop
  | .source, left => ∀ f ∈ left, ¬ Spreads f
  | .relay _, s => Open s ∧ waiting s = 0

theorem silent_of_reachable (hframes : ∀ f ∈ frames, ¬ Spreads f) {c : Config ι}
    (h : (network ι frames).system.Reachable OnceEach c) (v : Station ι) :
    Silent v (c.node v) := by
  refine (Network.node_invariant (P := Silent) (Q := fun _ f => ¬ Spreads f) ?_ ?_ ?_ h).1 v
  · intro v
    cases v with
    | source => exact hframes
    | relay i => exact ⟨⟨rfl, rfl⟩, rfl⟩
  · intro c v e s fs hs _ hhandle
    cases v with
    | source =>
      cases hleft : c.node .source with
      | nil =>
        rw [hleft] at hhandle
        cases hhandle
      | cons f left =>
        simp only [hleft, Silent, List.forall_mem_cons] at hs
        rw [hleft] at hhandle
        cases hhandle
        exact ⟨hs.2, by simpa using hs.1⟩
    | relay i =>
      have hcount := (transmitted hhandle).2.2.2
      have hnone : waiting (c.node (.relay i)) = 0 := hs.2
      omega
  · rintro c k v sent u f hs hf ⟨rfl, -⟩ -
    cases v with
    | source => exact ⟨hs, by simp [network, receive]⟩
    | relay i =>
      have hopen : Open (c.node (.relay i)) := hs.1
      refine ⟨⟨hopen.receive i f, ?_⟩, ?_⟩
      · rcases hopen.waiting_receive i f with hsame | ⟨hspreads, -⟩
        · exact hsame.trans hs.2
        · exact absurd hspreads hf
      · cases f <;> simp [network, receive]

theorem terminates_of_silent (hframes : ∀ f ∈ frames, ¬ Spreads f) : Terminates ι frames := by
  intro run
  apply Set.finite_empty.subset
  intro n hn
  have hnext := run.next n
  have hrepeats : Repeats (run.event n) := hn
  obtain ⟨v, e, s, fs, he, hhandle, -⟩ | ⟨k, v, sent, u, f, he, -⟩ :=
    (network ι frames).system_step hnext
  · rw [he] at hrepeats
    cases v with
    | source => exact hrepeats
    | relay i =>
      have hcount := (transmitted hhandle).2.2.2
      have hnone := (silent_of_reachable hframes (run.reachable n) (.relay i)).2
      omega
  · rw [he] at hrepeats
    exact hrepeats

/-! A single relay hears the source only. -/

/-- The frames of the source that have not reached relay `i`. -/
def owing (i : ι) (log : List (Station ι × Frame)) (delivered : List (ℕ × Station ι)) :
    Finset ℕ :=
  (Finset.range log.length).filter fun k =>
    log[k]?.map Prod.fst = some .source ∧ (k, .relay i) ∉ delivered

theorem mem_owing {i : ι} {log : List (Station ι × Frame)} {delivered : List (ℕ × Station ι)}
    {k : ℕ} : k ∈ owing i log delivered ↔
      log[k]?.map Prod.fst = some .source ∧ (k, .relay i) ∉ delivered := by
  simp only [owing, Finset.mem_filter, Finset.mem_range, and_iff_right_iff_imp]
  rintro ⟨hsource, -⟩
  obtain ⟨entry, hentry, -⟩ := Option.map_eq_some_iff.mp hsource
  exact (List.getElem?_eq_some_iff.mp hentry).1

theorem owing_append (i : ι) (log : List (Station ι × Frame)) (delivered : List (ℕ × Station ι))
    (entry : Station ι × Frame) :
    owing i (log ++ [entry]) delivered ⊆
      if entry.1 = .source then insert log.length (owing i log delivered)
      else owing i log delivered := by
  intro k hk
  obtain ⟨hsource, hnew⟩ := mem_owing.mp hk
  rcases lt_trichotomy k log.length with hlt | rfl | hgt
  · have hold : k ∈ owing i log delivered := by
      rw [List.getElem?_append_left hlt] at hsource
      exact mem_owing.mpr ⟨hsource, hnew⟩
    split
    · exact Finset.mem_insert_of_mem hold
    · exact hold
  · have hentry : entry.1 = .source := by simpa using hsource
    rw [if_pos hentry]
    exact Finset.mem_insert_self _ _
  · rw [List.getElem?_eq_none (by simp; omega)] at hsource
    cases hsource

theorem owing_deliver (i : ι) (log : List (Station ι × Frame)) (delivered : List (ℕ × Station ι))
    (k : ℕ) (v : Station ι) :
    owing i log (delivered ++ [(k, v)]) =
      if v = .relay i then (owing i log delivered).erase k else owing i log delivered := by
  ext l
  by_cases hv : v = .relay i
  · subst hv
    simp only [mem_owing, Finset.mem_erase, List.mem_append, List.mem_singleton, Prod.mk.injEq,
      and_true, not_or, ↓reduceIte]
    tauto
  · have hne : ∀ l, (l, Station.relay i) ≠ (k, v) := fun l h => hv (Prod.mk.inj h).2.symm
    simp [mem_owing, hv, hne]

/-- What may still become a transmission of relay `i`. -/
def toRelay (i : ι) (c : Config ι) : ℕ :=
  (c.node .source).length + (owing i c.log c.delivered).card + waiting (c.node (.relay i))

/-- A frame that the source sends is now on its way instead of waiting there. -/
theorem toRelay_source (i : ι) {c : Config ι} {f : Frame} {left : List Frame}
    (hleft : c.node .source = f :: left) :
    toRelay i (c.put .source left [f]) ≤ toRelay i c := by
  have hcard := Finset.card_le_card (owing_append i c.log c.delivered (.source, f))
  have hinsert := Finset.card_insert_le c.log.length (owing i c.log c.delivered)
  have hrelay := c.put_node_of_ne left [f] (show Station.relay i ≠ .source by simp)
  rw [if_pos rfl] at hcard
  simp only [toRelay, Network.Config.put_node_self, hrelay, Network.Config.put_log,
    Network.Config.put_delivered, hleft, List.length_cons, List.map_cons, List.map_nil]
  omega

/-- What a relay has sent no longer waits, and no relay hears it. -/
theorem toRelay_relay (i : ι) {c : Config ι} {s : Relay.State} {f : Frame}
    (hcount : waiting s + 1 = waiting (c.node (.relay i))) :
    toRelay i (c.put (.relay i) s [f]) < toRelay i c := by
  have hcard := Finset.card_le_card (owing_append i c.log c.delivered (.relay i, f))
  have hsource := c.put_node_of_ne s [f] (show Station.source ≠ .relay i by simp)
  rw [if_neg (by simp)] at hcard
  simp only [toRelay, Network.Config.put_node_self, hsource, Network.Config.put_log,
    Network.Config.put_delivered, List.map_cons, List.map_nil]
  omega

/-- A frame of the source reaches the relay once, and then it waits there at most. -/
theorem toRelay_deliver (i : ι) {c : Config ι} (hopen : Open (c.node (.relay i))) {k : ℕ}
    {f : Frame} (hk : c.log[k]? = some (.source, f)) (hnew : (k, .relay i) ∉ c.delivered) :
    toRelay i ((c.put (.relay i)
        ((network ι frames).receive (.relay i) .success f (c.node (.relay i))).1
        ((network ι frames).receive (.relay i) .success f (c.node (.relay i))).2).mark k
          (.relay i)) ≤ toRelay i c := by
  have hmem : k ∈ owing i c.log c.delivered := by
    refine mem_owing.mpr ⟨?_, hnew⟩
    rw [hk]
    rfl
  have hcard := Finset.card_erase_add_one hmem
  have hnothing : ((network ι frames).receive (.relay i) .success f
      (c.node (.relay i))).2 = [] := by
    cases f <;> rfl
  have hstay := c.put_node_of_ne ((network ι frames).receive (.relay i) .success f
    (c.node (.relay i))).1 [] (show Station.source ≠ .relay i by simp)
  have hcount : waiting ((network ι frames).receive (.relay i) .success f
      (c.node (.relay i))).1 ≤ waiting (c.node (.relay i)) + 1 := by
    rcases hopen.waiting_receive i f with hsame | ⟨-, hmore⟩
    · exact hsame.le.trans (Nat.le_succ _)
    · exact hmore.le
  rw [hnothing]
  simp only [toRelay, Network.Config.mark_node, Network.Config.put_node_self, hstay,
    Network.Config.mark_log, Network.Config.put_log, Network.Config.mark_delivered,
    Network.Config.put_delivered, List.map_nil, List.append_nil, owing_deliver, ↓reduceIte]
  omega

theorem toRelay_step [Subsingleton ι] (i : ι) {c c' : Config ι}
    {e : Network.Event (StationEvent (ι := ι)) StationAnswer}
    (hopen : Open (c.node (.relay i))) (hallowed : OnceEach c e)
    (h : (network ι frames).system.step c e = some c') :
    toRelay i c' ≤ toRelay i c ∧ (Repeats e → toRelay i c' < toRelay i c) := by
  obtain ⟨v, a, s, fs, rfl, hhandle, rfl⟩ | ⟨k, v, sent, u, f, rfl, hk, rfl⟩ :=
    (network ι frames).system_step h
  · cases v with
    | source =>
      refine ⟨?_, fun hrepeats => hrepeats.elim⟩
      cases hleft : c.node .source with
      | nil =>
        rw [hleft] at hhandle
        cases hhandle
      | cons f left =>
        rw [hleft] at hhandle
        cases hhandle
        exact toRelay_source i hleft
    | relay j =>
      obtain rfl := Subsingleton.elim i j
      obtain ⟨-, -, hone, hcount⟩ := transmitted hhandle
      obtain ⟨f, rfl⟩ := List.length_eq_one_iff.mp hone
      have hless := toRelay_relay i (f := f) hcount
      exact ⟨hless.le, fun _ => hless⟩
  · obtain ⟨rfl, hnew, hother⟩ := hallowed
    refine ⟨?_, fun hrepeats => hrepeats.elim⟩
    cases v with
    | source =>
      have hrelay := c.put_node_of_ne (c.node .source) [] (show Station.relay i ≠ .source by simp)
      simp [toRelay, network, receive, owing_deliver, hrelay]
    | relay j =>
      obtain rfl := Subsingleton.elim i j
      have hsource : u = .source := by
        cases u with
        | source => rfl
        | relay j => exact absurd (congrArg _ (Subsingleton.elim j i)) (hother _ hk)
      exact toRelay_deliver i hopen (hsource ▸ hk) hnew

theorem terminates_of_subsingleton [Subsingleton ι] : Terminates ι frames := by
  intro run
  rcases isEmpty_or_nonempty ι with hempty | ⟨⟨i⟩⟩
  · apply Set.finite_empty.subset
    intro n hn
    have hrepeats : Repeats (run.event n) := hn
    cases he : run.event n with
    | act v e =>
      cases v with
      | source => simp [he, Repeats] at hrepeats
      | relay j => exact hempty.elim j
    | deliver k v sent => simp [he, Repeats] at hrepeats
  · apply run.finite_of_rank (toRelay i) fun _ e => Repeats e
    · intro c e c' hreach hallowed hstep
      exact (toRelay_step i (fine_of_reachable hreach (.relay i)) hallowed hstep).1
    · intro c e c' hreach hallowed hstep hrepeats
      exact (toRelay_step i (fine_of_reachable hreach (.relay i)) hallowed hstep).2 hrepeats

/-! Two relays keep a frame going. -/

/-- The source still has a frame that spreads. -/
def Kindled (c : Config ι) : Prop := ∃ f ∈ c.node .source, Spreads f

/-- A frame that spreads is on its way to a relay. -/
def Flying (c : Config ι) : Prop :=
  ∃ k u f i, c.log[k]? = some (u, f) ∧ Spreads f ∧ u ≠ .relay i ∧ (k, .relay i) ∉ c.delivered

def Burning (c : Config ι) : Prop := ∃ i, Loaded (c.node (.relay i))

structure Alight (c : Config ι) : Prop where
  fine : ∀ v, Fine v (c.node v)
  past : ∀ p ∈ c.delivered, p.1 < c.log.length
  alight : Kindled c ∨ Flying c ∨ Burning c

open Classical in
/-- How far the next transmission is. -/
noncomputable def distance (c : Config ι) : ℕ :=
  if Burning c then 0 else if Flying c then 1 else (c.node .source).length + 2

theorem Alight.fine_put {c : Config ι} (h : Alight c) {v : Station ι} {s : StationState v}
    (hs : Fine v s) (fs : List Frame) (w : Station ι) : Fine w ((c.put v s fs).node w) :=
  Network.Config.forall_put_node (P := Fine) hs (fun w _ => h.fine w) fs w

theorem Alight.flying_put [Nontrivial ι] {c : Config ι} (h : Alight c) (v : Station ι)
    (s : StationState v) {f : Frame} (hf : Spreads f) : Flying (c.put v s [f]) := by
  obtain ⟨i, hi⟩ : ∃ i, v ≠ .relay i := by
    cases v with
    | source =>
      obtain ⟨i⟩ : Nonempty ι := inferInstance
      exact ⟨i, by simp⟩
    | relay j =>
      obtain ⟨i, hi⟩ := exists_ne j
      exact ⟨i, fun heq => hi (Station.relay.inj heq).symm⟩
  refine ⟨c.log.length, v, f, i, by simp, hf, hi, fun hmem => ?_⟩
  exact lt_irrefl _ (h.past _ hmem)

/-- Burning ends in a transmission, and everything else comes closer to one. -/
theorem Alight.progress [Nontrivial ι] {c : Config ι} (h : Alight c) :
    ∃ e c', OnceEach c e ∧ (network ι frames).system.step c e = some c' ∧ Alight c' ∧
      (Repeats e ∨ distance c' < distance c) := by
  by_cases hburning : Burning c
  · obtain ⟨i, hloaded⟩ := hburning
    obtain ⟨e, t, f, hhandle, hf⟩ := hloaded.transmits i
    refine ⟨.act (.relay i) e, _, trivial, Network.system_step_act _ hhandle, ?_, .inl trivial⟩
    exact ⟨h.fine_put ((h.fine _).handle hhandle) [f], Network.Config.past_put h.past _ t [f],
      .inr (.inl (h.flying_put _ t hf))⟩
  · by_cases hflying : Flying c
    · obtain ⟨k, u, f, i, hk, hf, hu, hnew⟩ := hflying
      have hopen : Open (c.node (.relay i)) := h.fine (.relay i)
      set out := (network ι frames).receive (.relay i) .success f (c.node (.relay i)) with hout
      have hburns : Burning ((c.put (.relay i) out.1 out.2).mark k (.relay i)) := by
        refine ⟨i, ?_⟩
        rw [Network.Config.mark_node, Network.Config.put_node_self]
        exact hopen.loaded i hf
      refine ⟨.deliver k (.relay i) .success, _, ⟨rfl, hnew, ?_⟩, ?_, ⟨?_, ?_, .inr (.inr hburns)⟩,
        .inr ?_⟩
      · intro entry hentry
        rw [Option.some.inj (hentry.symm.trans hk)]
        exact hu
      · simp [Network.system, Network.step, hk, hout]
      · exact h.fine_put (v := .relay i) (hopen.receive i f) out.2
      · exact Network.Config.past_deliver h.past hk (.relay i) out.1 out.2
      · unfold distance
        rw [if_pos hburns, if_neg hburning]
        split
        · exact Nat.one_pos
        · exact Nat.succ_pos _
    · obtain ⟨f, hmem, hf⟩ : Kindled c := by
        rcases h.alight with hkindled | hfly | hburn
        · exact hkindled
        · exact absurd hfly hflying
        · exact absurd hburn hburning
      obtain ⟨g, left, hleft⟩ := List.exists_cons_of_ne_nil (List.ne_nil_of_mem hmem)
      have hhandle : (network ι frames).handle .source () (c.node .source) = some (left, [g]) := by
        rw [hleft]
        rfl
      have hfar : distance c = left.length + 3 := by
        unfold distance
        rw [if_neg hburning, if_neg hflying, hleft]
        rfl
      refine ⟨.act .source (), _, trivial, Network.system_step_act _ hhandle,
        ⟨h.fine_put (v := .source) trivial [g], Network.Config.past_put h.past .source left [g],
          ?_⟩, .inr ?_⟩
      · rw [hleft] at hmem
        rcases List.mem_cons.mp hmem with rfl | hlater
        · exact .inr (.inl (h.flying_put .source left hf))
        · exact .inl ⟨f, by simpa using hlater, hf⟩
      · rw [hfar]
        unfold distance
        split
        · exact Nat.succ_pos _
        · split
          · omega
          · rw [Network.Config.put_node_self]
            omega

theorem not_terminates_of_spreads [Nontrivial ι] {f : Frame} (hmem : f ∈ frames)
    (hf : Spreads f) : ¬ Terminates ι frames := by
  intro hterminates
  have hinit : Alight (network ι frames).system.init := by
    refine ⟨?_, by simp [Network.system], .inl ⟨f, hmem, hf⟩⟩
    intro v
    cases v with
    | source => trivial
    | relay i => exact ⟨rfl, rfl⟩
  obtain ⟨run, hrun⟩ : ∃ run : (network ι frames).system.InfiniteRun OnceEach,
      {n | Repeats (run.event n)}.Infinite :=
    System.InfiniteRun.exists_infinite distance (fun _ e => Repeats e) hinit
      fun c hc => hc.progress
  exact hrun (hterminates run)

/-- The relays come to rest, however the frames are delivered, exactly if there is at
most one of them or nothing was originated that an idle relay repeats. -/
theorem flooding_terminates_iff (ι : Type) [DecidableEq ι] (frames : List Frame) :
    Terminates ι frames ↔ Subsingleton ι ∨ ∀ f ∈ frames, ¬ Spreads f := by
  constructor
  · intro hterminates
    by_contra hnot
    push Not at hnot
    obtain ⟨hmany, f, hmem, hf⟩ := hnot
    exact not_terminates_of_spreads hmem hf hterminates
  · rintro (hone | hsilent)
    · exact terminates_of_subsingleton
    · exact terminates_of_silent hsilent

/-- One relay comes to rest, and two of them can go on for ever. -/
theorem flooding_terminates_iff_pair :
    Terminates Unit [.car sizeofTestCarMsg ⟨1, Cmd.w_.code⟩] ∧
    ∃ run : (network (Fin 2) [.car sizeofTestCarMsg ⟨1, Cmd.w_.code⟩]).system.InfiniteRun OnceEach,
      {n | Repeats (run.event n)}.Infinite := by
  refine ⟨(flooding_terminates_iff Unit _).mpr (.inl inferInstance), ?_⟩
  have hnot : ¬ Terminates (Fin 2) [.car sizeofTestCarMsg ⟨1, Cmd.w_.code⟩] := by
    rw [flooding_terminates_iff]
    rintro (hone | hsilent)
    · exact absurd (hone.elim 0 1) (by decide)
    · exact hsilent _ (List.mem_singleton_self _) ⟨rfl, by decide⟩
  exact not_forall.mp hnot

/-- One command keeps two relays busy for ever. -/
theorem two_relays_never_stop :
    ¬ Terminates (Fin 2) [.car sizeofTestCarMsg ⟨1, Cmd.w_.code⟩] :=
  not_terminates_of_spreads (List.mem_singleton_self _) ⟨rfl, by decide⟩

end WsnContest.RelayFlood
