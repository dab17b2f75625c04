import WsnContest.Lib.Custody
import WsnContest.Routing.Data
import WsnContest.Routing.Election

/-! Packets are neither invented nor multiplied on their way. A node that takes over a
packet sends it on or prints it, and the sink, which could do both once it is elected, is
no destination any more by then. -/
namespace WsnContest.Routing
open Tinyos Lib

/-- The frame carries the packet `k` of the source `n`. -/
def Frame.carries (n k : Word16) (f : Frame) : Bool :=
  match f.payload with
  | .beacon bm => bm.nodeid == n && bm.counter == k
  | _ => false

/-- The line tells of the packet `k` of the source `n`. -/
def tells (n k : Word16) (line : Word16 × Word16 × Word16) : Bool :=
  line.2.1 == n && line.2.2 == k

section Count
variable {n k : Word16}

theorem isBeacon_of_carries {f : Frame} (h : f.carries n k = true) : f.isBeacon = true := by
  obtain ⟨source, destination, length, payload⟩ := f
  cases payload with
  | beacon bm => rfl
  | control cm => simp [Frame.carries] at h
  | route rm => simp [Frame.carries] at h

/-- A frame counts if it carries the packet. -/
def counts (n k : Word16) {V : Type} (entry : V × Frame) : ℕ :=
  if entry.2.carries n k then 1 else 0

/-- What weighs nothing but data weighs what the data weighs. -/
theorem load_dataFrames {V : Type} {weight : V × Frame → ℕ} {v : V}
    (h : ∀ f, f.isBeacon = false → weight (v, f) = 0) (fs : List Frame) :
    Network.load weight v fs = Network.load weight v (dataFrames fs) := by
  induction fs with
  | nil => rfl
  | cons f fs ih =>
    unfold Network.load dataFrames at ih ⊢
    rw [List.map_cons, List.sum_cons, ih]
    cases hf : f.isBeacon with
    | true => rw [List.filter_cons_of_pos hf, List.map_cons, List.sum_cons]
    | false => rw [List.filter_cons_of_neg (by simp [hf]), h f hf, Nat.zero_add]

theorem counts_of_no_data {V : Type} (v : V) (f : Frame) (h : f.isBeacon = false) :
    counts n k (v, f) = 0 :=
  if_neg fun hcarries => by simp [isBeacon_of_carries hcarries] at h

/-- A frame that comes in is answered by a copy of its data or by no data. -/
theorem Carriage.load_le {V : Type} (v : V) {tos : Word16} {s t : State} {f : Frame}
    {fs : List Frame} (h : Carriage tos s f t fs) :
    Network.load (counts n k) v fs ≤ if f.carries n k then 1 else 0 := by
  rw [load_dataFrames (counts_of_no_data v)]
  rcases h.handed with hnone | ⟨-, -, -, hone⟩
  · simp [hnone]
  · rw [hone, Network.load_singleton]
    exact le_rfl

/-- Of a packet that is taken over there is one copy or one line afterwards, or nothing. -/
theorem Carriage.count_le {V : Type} (v : V) {tos : Word16} {s t : State} {f : Frame}
    {fs : List Frame} (h : Carriage tos s f t fs)
    (hunelected : s.type = .dst → isSP tos s = false) :
    t.recvData.countP (tells n k) + Network.load (counts n k) v fs ≤
      s.recvData.countP (tells n k) + if f.carries n k then 1 else 0 := by
  rcases h.printed with hsame | ⟨-, -, hdst, bm, hpayload, hline⟩
  · rw [hsame]
    exact Nat.add_le_add_left (h.load_le v) _
  · have hnone : dataFrames fs = [] := by
      refine (h.either (hunelected hdst)).resolve_left fun hsame => ?_
      simp [hline] at hsame
    have hcarries : f.carries n k = tells n k (f.source, bm.nodeid, bm.counter) := by
      rw [Frame.carries, hpayload]
      rfl
    rw [load_dataFrames (counts_of_no_data v), hnone, hline, List.countP_append,
      List.countP_singleton, hcarries]
    exact le_rfl

end Count

section Marks
variable {s : State} {i j : Word16}

/-- An entry is set by its own name only, within the table or beyond. -/
theorem marked_of_mark (hne : j ≠ i) (h : (s.mark i).Marked j) : s.Marked j := by
  by_cases hi : i.val < pspTableSize
  · exact ((marked_mark hi s j).mp h).resolve_left hne
  · rwa [State.mark, dif_neg hi] at h

end Marks

section Network
variable {V : Type} {id : V → Word16} {sink : V}

/-- Nobody has heard the name of the sink, the sink itself included. -/
structure Unnamed (id : V → Word16) (sink : V) (c : Config V) : Prop where
  unmarked : ¬ (c.node sink).Marked (id sink)
  untold : ∀ u f, (u, f) ∈ c.log → ∀ cm ∈ f.controlMsg, cm.nodeid ≠ id sink

/-- The sink has been called and is a potential speaker for good. -/
structure Candidate (s : State) : Prop where
  radio : s.radio ≠ .off
  type : s.type = .psp

variable [DecidableEq V]

theorem Unnamed.put {c : Config V} (h : Unnamed id sink c) {v : V}
    {t : State} {fs : List Frame} (hmarked : v = sink → ¬ t.Marked (id sink))
    (hfs : ∀ f ∈ fs, ∀ cm ∈ f.controlMsg, cm.nodeid ≠ id sink) :
    Unnamed id sink (c.put v t fs) where
  unmarked := by
    by_cases hv : sink = v
    · subst hv
      rw [c.put_node_self]
      exact hmarked rfl
    · rw [c.put_node_of_ne t fs hv]
      exact h.unmarked
  untold := by
    intro u f hmem
    rcases Network.Config.mem_put_log.mp hmem with hold | ⟨-, hf⟩
    · exact h.untold u f hold
    · exact hfs f hf

theorem Unnamed.hear (hid : Function.Injective id) {c : Config V} (h : Unnamed id sink c) {v : V}
    {f : Frame} (hf : ∀ cm ∈ f.controlMsg, cm.nodeid ≠ id sink) (ans : Answers) :
    v = sink ∧ Candidate (hear (id v) ans f (c.node v)).1 ∨
      Unnamed id sink (c.put v (hear (id v) ans f (c.node v)).1
        (hear (id v) ans f (c.node v)).2) := by
  have hradio : (Routing.hear (id v) ans f (c.node v)).1.radio = (c.node v).radio :=
    (Prod.mk.inj (clock_hear (id v) (c.node v) ans f)).2
  have hhearing := hear_hearing (id v) ans f (c.node v)
  generalize (Routing.hear (id v) ans f (c.node v)).1 = t,
    (Routing.hear (id v) ans f (c.node v)).2 = fs at hradio hhearing ⊢
  cases hhearing with
  | aside hidle hpoll hframes =>
    refine .inr (h.put (fun hv hmarked => ?_) fun g hg cm hcm => ?_)
    · subst hv
      exact h.unmarked ((marked_congr hpoll _).mp hmarked)
    · rw [(hframes g hg).1] at hcm
      cases hcm
  | called htaken hcall hpoll hframes =>
    by_cases hv : v = sink
    · have htype : t.type = .psp := (congrArg Poll.type hpoll).trans (type_mark _ _)
      exact .inl ⟨hv, by simp [hradio, htaken.1], htype⟩
    · refine .inr (h.put (fun heq => absurd heq hv) fun g hg cm hcm heq => ?_)
      exact hv (hid (((hframes g hg).1 cm hcm).symm.trans heq))
  | @told cm htaken hcm hwell hpoll hframes =>
    refine .inr (h.put (fun hv hmarked => ?_) fun g hg cm' hcm' => ?_)
    · subst hv
      exact h.unmarked (marked_of_mark (hf cm hcm).symm ((marked_congr hpoll _).mp hmarked))
    · obtain rfl : cm = cm' := Option.some.inj ((hframes g hg).2.1.symm.trans hcm')
      exact hf cm hcm

omit [DecidableEq V] in
theorem Candidate.hear {s : State} (h : Candidate s) (tos : Word16) (ans : Answers) (f : Frame) :
    Candidate (hear tos ans f s).1 := by
  have hradio : (Routing.hear tos ans f s).1.radio = s.radio :=
    (Prod.mk.inj (clock_hear tos s ans f)).2
  have hhearing := hear_hearing tos ans f s
  generalize (Routing.hear tos ans f s).1 = t, (Routing.hear tos ans f s).2 = fs
    at hradio hhearing ⊢
  refine ⟨hradio ▸ h.radio, ?_⟩
  cases hhearing with
  | aside _ hpoll _ => exact (congrArg Poll.type hpoll).trans h.type
  | called _ _ hpoll _ => exact (congrArg Poll.type hpoll).trans (type_mark _ _)
  | told _ _ _ hpoll _ => exact (congrArg Poll.type hpoll).trans ((type_mark s _).trans h.type)

/-- The name of the sink is heard only after the sink was called. -/
def Discreet (id : V → Word16) (sink : V) (c : Config V) : Prop :=
  Candidate (c.node sink) ∨ Unnamed id sink c

omit [DecidableEq V] in
theorem Discreet.mark {c : Config V} (h : Discreet id sink c) (i : ℕ) (v : V) :
    Discreet id sink (c.mark i v) :=
  h.imp_right fun hunnamed => ⟨hunnamed.unmarked, hunnamed.untold⟩

theorem Discreet.hear (hid : Function.Injective id) {c : Config V} (h : Discreet id sink c)
    {v : V} {f : Frame} (hf : Unnamed id sink c → ∀ cm ∈ f.controlMsg, cm.nodeid ≠ id sink)
    (ans : Answers) :
    Discreet id sink (c.put v (hear (id v) ans f (c.node v)).1
      (hear (id v) ans f (c.node v)).2) := by
  rcases h with hcandidate | hunnamed
  · left
    by_cases hv : sink = v
    · subst hv
      rw [Network.Config.put_node_self]
      exact hcandidate.hear _ ans f
    · rwa [Network.Config.put_node_of_ne _ _ _ hv]
  · rcases hunnamed.hear hid (v := v) (hf hunnamed) ans with ⟨rfl, hcandidate⟩ | hsame
    · left
      rwa [Network.Config.put_node_self]
    · exact .inr hsame

theorem Discreet.act (hid : Function.Injective id) {c : Config V} (h : Discreet id sink c)
    {v : V} {e : Event} {t : State} {fs : List Frame}
    (hhandle : handle (id v) e (c.node v) = some (t, fs)) : Discreet id sink (c.put v t fs) := by
  cases handle_polling hhandle with
  | booted hoff =>
    obtain ⟨type, radio, heq⟩ := booted_eq (id v) (c.node v)
    rcases h with hcandidate | hunnamed
    · left
      by_cases hv : sink = v
      · subst hv
        exact absurd hoff hcandidate.radio
      · rwa [Network.Config.put_node_of_ne _ _ _ hv]
    · refine .inr (hunnamed.put (fun hv hmarked => ?_) (by simp))
      subst hv
      rw [heq] at hmarked
      exact hunnamed.unmarked hmarked
  | aside hpoll hradio hframes _ =>
    rcases h with hcandidate | hunnamed
    · left
      by_cases hv : sink = v
      · subst hv
        rw [Network.Config.put_node_self]
        exact ⟨hradio hcandidate.radio, (congrArg Poll.type hpoll).trans hcandidate.type⟩
      · rwa [Network.Config.put_node_of_ne _ _ _ hv]
    · refine .inr (hunnamed.put (fun hv hmarked => ?_) fun f hf cm hcm => ?_)
      · subst hv
        exact hunnamed.unmarked ((marked_congr hpoll _).mp hmarked)
      · rw [(hframes f hf).1] at hcm
        cases hcm
  | @sourceData source destination len bm ans _ _ hhear =>
    have hstep := h.hear hid (v := v) (f := ⟨source, destination, len, .beacon bm⟩)
      (fun _ => by simp [Frame.controlMsg]) ans
    rwa [hhear] at hstep

theorem discreet_of_reachable (sink : V) (hid : Function.Injective id)
    {allowed : Config V → Network.Event (fun _ : V => Event) (fun _ => Answers) → Prop}
    {c : Config V} (h : (routing id).system.Reachable allowed c) : Discreet id sink c := by
  refine h.invariant (P := Discreet id sink) (.inr ⟨?_, by simp [Network.system]⟩) ?_
  · rintro ⟨_, hset⟩
    cases hset
  · intro c e c' hc _ hstep
    obtain ⟨v, a, t, fs, rfl, hhandle, rfl⟩ | ⟨i, v, ans, u, f, rfl, hlog, rfl⟩ :=
      (routing id).system_step hstep
    · exact hc.act hid hhandle
    · apply Discreet.mark
      exact hc.hear hid (fun hunnamed => hunnamed.untold u f (List.mem_of_getElem? hlog)) ans

omit [DecidableEq V] in
/-- As long as it is the destination, the sink is not elected. -/
theorem Discreet.unelected {c : Config V} (h : Discreet id sink c)
    (hdst : (c.node sink).type = .dst) : isSP (id sink) (c.node sink) = false := by
  rcases h with hcandidate | hunnamed
  · rw [hcandidate.type] at hdst
    cases hdst
  · by_contra hsp
    exact hunnamed.unmarked ((isSP_iff _ _).mp (Bool.of_not_eq_false hsp)).1

omit [DecidableEq V] in
theorem routeReceive_nexthop (len : Word8) (rm : RouteMsg) (ans : Answers) (s : State) :
    (routeReceive len rm ans s).curNexthopNodeId = s.curNexthopNodeId ∨
      (routeReceive len rm ans s).curNexthopNodeId = rm.nodeid := by
  by_cases hlen : len = sizeofRouteMsg
  · subst hlen
    rw [routeReceive_eq]
    dsimp only [Table.hear, State.table]
    split
    · exact .inr rfl
    · exact .inl rfl
  · rw [routeReceive, if_neg fun h => hlen h.1]
    exact .inl rfl

/-- A frame that leads nobody to send to everybody, and is no data for everybody. -/
structure Unicast (f : Frame) : Prop where
  named : ∀ rm ∈ f.routeMsg, rm.nodeid ≠ broadcastAddr
  addressed : f.isBeacon = true → f.destination ≠ broadcastAddr

omit [DecidableEq V] in
theorem Carriage.unicast {tos : Word16} {s t : State} {f₀ : Frame} {fs : List Frame}
    (h : Carriage tos s f₀ t fs) (hnext : s.curNexthopNodeId ≠ broadcastAddr)
    (hroutes : ∀ f ∈ fs, ∀ rm ∈ f.routeMsg, rm.nodeid ≠ broadcastAddr) :
    ∀ f ∈ fs, Unicast f := by
  intro f hf
  refine ⟨hroutes f hf, fun hbeacon => ?_⟩
  have hmem : f ∈ dataFrames fs := mem_dataFrames.mpr ⟨hf, hbeacon⟩
  rcases h.handed with hnone | ⟨-, -, -, hone⟩
  · simp [hnone] at hmem
  · rw [hone] at hmem
    obtain rfl := List.mem_singleton.mp hmem
    exact hnext

/-- Where no node has the broadcast address, data frames have one addressee. -/
theorem unicast_of_reachable (hcast : ∀ v, id v ≠ broadcastAddr)
    {allowed : Config V → Network.Event (fun _ : V => Event) (fun _ => Answers) → Prop}
    {c : Config V} (h : (routing id).system.Reachable allowed c) :
    (∀ v, (c.node v).curNexthopNodeId ≠ broadcastAddr) ∧ ∀ u f, (u, f) ∈ c.log → Unicast f := by
  refine Network.node_invariant (N := routing id)
    (P := fun _ s => s.curNexthopNodeId ≠ broadcastAddr) (Q := fun _ f => Unicast f) ?_ ?_ ?_ h
  · exact fun _ => show (0 : Word16) ≠ broadcastAddr by decide
  · intro c v e t fs hnext _ hhandle
    have houtcome := handle_outcome hhandle
    have hsame : t.curNexthopNodeId = (c.node v).curNexthopNodeId := by
      cases houtcome with
      | aside haside => exact congrArg Table.nexthop haside.table
      | beacon _ _ htable => exact congrArg Table.nexthop htable
      | relay _ _ _ htable => exact congrArg Table.nexthop htable
      | dropped _ _ _ htable => exact congrArg Table.nexthop htable
    have hroutes : ∀ f ∈ fs, ∀ rm ∈ f.routeMsg, rm.nodeid ≠ broadcastAddr := by
      have hone : ∀ {rm₀ : RouteMsg}, rm₀.nodeid = id v →
          ∀ f ∈ [airedBy (id v) broadcastAddr (.route rm₀)], ∀ rm ∈ f.routeMsg,
            rm.nodeid ≠ broadcastAddr := by
        intro rm₀ hname f hf rm hrm
        obtain rfl := List.mem_singleton.mp hf
        obtain rfl : rm₀ = rm := Option.some.inj hrm
        exact hname ▸ hcast v
      cases houtcome with
      | aside haside =>
        intro f hf rm hrm
        rw [haside.frames f hf] at hrm
        cases hrm
      | beacon => exact hone rfl
      | relay => exact hone rfl
      | dropped => simp
    refine ⟨hsame ▸ hnext, ?_⟩
    rcases handle_carriage hhandle with ⟨_, _, _, _, _, -, hcarriage⟩ | ⟨-, hnone, -⟩
    · exact hcarriage.unicast hnext hroutes
    · exact fun f hf => ⟨hroutes f hf, fun hbeacon =>
        absurd (mem_dataFrames.mpr ⟨hf, hbeacon⟩) (by simp [hnone])⟩
  · intro c i v ans u f hnext hf _ _
    change (hear (id v) ans f (c.node v)).1.curNexthopNodeId ≠ broadcastAddr ∧
      ∀ g ∈ (hear (id v) ans f (c.node v)).2, Unicast g
    have hcarriage := hear_carriage (id v) ans f (c.node v)
    cases hrm : f.routeMsg with
    | none =>
      have haside := hear_aside (id v) ans f (c.node v) hrm
      have hsame : (hear (id v) ans f (c.node v)).1.curNexthopNodeId =
          (c.node v).curNexthopNodeId := congrArg Table.nexthop haside.table
      refine ⟨hsame ▸ hnext, hcarriage.unicast hnext fun g hg rm hrm' => ?_⟩
      rw [haside.frames g hg] at hrm'
      cases hrm'
    | some rm =>
      rcases hear_beacon hrm (id v) ans (c.node v) with hheard | hpassed
      · rw [hheard]
        refine ⟨?_, by simp⟩
        rcases routeReceive_nexthop f.length rm ans (c.node v) with hsame | hnew
        · rw [hsame]
          exact hnext
        · rw [hnew]
          exact hf.named rm hrm
      · rw [hpassed]
        exact ⟨hnext, by simp⟩

/-- A data frame reaches a node at most once. Of all else nothing is assumed. -/
def DataOnce (c : Config V) :
    Network.Event (fun _ : V => Event) (fun _ : V => Answers) → Prop
  | .act _ _ => True
  | .deliver i v _ => ∀ entry ∈ c.log[i]?, entry.2.isBeacon = true → (i, v) ∉ c.delivered

instance (c : Config V) (e : Network.Event (fun _ : V => Event) (fun _ : V => Answers)) :
    Decidable (DataOnce c e) :=
  match e with
  | .act _ _ => inferInstanceAs (Decidable True)
  | .deliver i v _ => inferInstanceAs
      (Decidable (∀ entry ∈ c.log[i]?, entry.2.isBeacon = true → (i, v) ∉ c.delivered))

/-- The frame is for the node `v`. -/
def heeds (id : V → Word16) (v : V) (f : Frame) : Bool := f.destination == id v

omit [DecidableEq V] in
theorem heeds_unique (hid : Function.Injective id) (f : Frame) (v w : V)
    (hv : heeds id v f = true) (hw : heeds id w f = true) : v = w :=
  hid ((beq_iff_eq.mp hv).symm.trans (beq_iff_eq.mp hw))

/-- A source gives a node the packet `k` of the source `n`. -/
def brings (n k : Word16) : Network.Event (fun _ : V => Event) (fun _ : V => Answers) → Bool
  | .act _ (.sourceData source destination len bm _) =>
    Frame.carries n k ⟨source, destination, len, .beacon bm⟩
  | .act _ .booted | .act _ (.startDone _) | .act _ (.timer0Fired _) | .act _ (.timer1Fired _)
  | .act _ (.sendDone ..) | .deliver .. => false

/-- The copies of a packet that are on their way and have not come to their addressee. -/
def underway (id : V → Word16) (n k : Word16) (c : Config V) : ℕ :=
  Network.custody (heeds id) (counts n k) c.log c.delivered

/-- How often the sink has printed a packet. -/
def printed (sink : V) (n k : Word16) (c : Config V) : ℕ :=
  (c.node sink).recvData.countP (tells n k)

/-- What one node does with a frame, counted over the whole network. -/
theorem carriage_conserves {c : Config V} (hdiscreet : Discreet id sink c) {v : V} {t : State}
    {f : Frame} {fs : List Frame} (h : Carriage (id v) (c.node v) f t fs) (n k : Word16) :
    printed sink n k (c.put v t fs) + Network.load (counts n k) v fs ≤
      printed sink n k c + if f.carries n k then 1 else 0 := by
  unfold printed
  by_cases hv : sink = v
  · subst hv
    rw [Network.Config.put_node_self]
    exact h.count_le sink hdiscreet.unelected
  · rw [Network.Config.put_node_of_ne _ _ _ hv]
    exact Nat.add_le_add_left (h.load_le v) _

/-- A node that hands over no data and prints nothing. -/
theorem idle_conserves {c : Config V} {v : V} {t : State} {fs : List Frame}
    (hnone : dataFrames fs = []) (hsame : t.recvData = (c.node v).recvData) (n k : Word16) :
    printed sink n k (c.put v t fs) + Network.load (counts n k) v fs ≤ printed sink n k c := by
  have hprinted : printed sink n k (c.put v t fs) = printed sink n k c :=
    congrArg (List.countP (tells n k))
      (Network.Config.put_node_congr (fun _ => State.recvData) hsame fs sink)
  rw [hprinted, load_dataFrames (counts_of_no_data v), hnone]
  exact le_rfl

theorem act_conserves {c : Config V} (hdiscreet : Discreet id sink c) {v : V} {a : Event}
    {t : State} {fs : List Frame} (hhandle : handle (id v) a (c.node v) = some (t, fs))
    (n k : Word16) :
    printed sink n k (c.put v t fs) + Network.load (counts n k) v fs ≤
      printed sink n k c + if brings n k (.act v a) then 1 else 0 := by
  rcases handle_carriage hhandle with ⟨_, _, _, _, _, rfl, hcarriage⟩ | ⟨-, hnone, hsame⟩
  · exact carriage_conserves hdiscreet hcarriage n k
  · exact (idle_conserves hnone hsame n k).trans (Nat.le_add_right _ _)

theorem deliver_conserves {c : Config V} (hdiscreet : Discreet id sink c) {v u : V} {f : Frame}
    (hunicast : Unicast f) {ans : Answers} {t : State} {fs : List Frame}
    (hhear : hear (id v) ans f (c.node v) = (t, fs)) (n k : Word16) :
    printed sink n k (c.put v t fs) + Network.load (counts n k) v fs ≤
      printed sink n k c + if heeds id v f then counts n k (u, f) else 0 := by
  by_cases htaken : f.carries n k = true ∧ heeds id v f = false
  · -- A data frame for another node is kept from the handler.
    have hpassed : ¬ (c.node v).Takes (id v) f := by
      rintro ⟨-, hto | hall⟩
      · simp [heeds, hto] at htaken
      · exact hunicast.addressed (isBeacon_of_carries htaken.1) hall
    rw [hear_of_not_takes hpassed] at hhear
    obtain ⟨rfl, rfl⟩ := Prod.mk.inj hhear
    exact (idle_conserves dataFrames_nil rfl n k).trans (Nat.le_add_right _ _)
  · have hcarriage := hear_carriage (id v) ans f (c.node v)
    rw [hhear] at hcarriage
    refine (carriage_conserves hdiscreet hcarriage n k).trans (Nat.add_le_add_left ?_ _)
    cases hcarries : f.carries n k with
    | false => simp
    | true =>
      have hheeds : heeds id v f = true := by simpa [hcarries] using htaken
      simp [hheeds, counts, hcarries]

/-- One step of the network, where what a source gives a node may be worth nothing. -/
theorem conserved_step (hid : Function.Injective id) (sink : V) (hcast : ∀ v, id v ≠ broadcastAddr)
    {allowed : Config V → Network.Event (fun _ : V => Event) (fun _ => Answers) → Prop}
    {c c' : Config V} (hreach : (routing id).system.Reachable allowed c)
    {e : Network.Event (fun _ : V => Event) (fun _ => Answers)} (honce : DataOnce c e)
    {n k : Word16} {gain : ℕ}
    (hact : ∀ v a t fs, e = .act v a → handle (id v) a (c.node v) = some (t, fs) →
      printed sink n k (c.put v t fs) + Network.load (counts n k) v fs ≤ printed sink n k c + gain)
    (hstep : (routing id).system.step c e = some c') :
    printed sink n k c' + underway id n k c' ≤ printed sink n k c + underway id n k c + gain := by
  refine Network.custody_step (heeds_unique hid) hact ?_ hstep
  rintro i v ans u f t fs rfl hlog hhear
  have hunicast := (unicast_of_reachable hcast hreach).2 u f (List.mem_of_getElem? hlog)
  refine ⟨deliver_conserves (discreet_of_reachable sink hid hreach) hunicast hhear n k, ?_⟩
  intro hcounts _
  refine honce (u, f) hlog ?_
  by_contra hdata
  exact hcounts.ne' (counts_of_no_data u f (Bool.of_not_eq_true hdata))

end Network

/-- Where a data frame reaches a node at most once: however often a packet changes hands,
and whatever the elections and the routes do meanwhile, it was printed at the sink and is
under way together no more often than sources have brought it in. -/
theorem data_conserved {V : Type} [DecidableEq V] {id : V → Word16}
    (hid : Function.Injective id) (sink : V) (hcast : ∀ v, id v ≠ broadcastAddr)
    (es : List (Network.Event (fun _ : V => Event) (fun _ : V => Answers)))
    (honce : (routing id).system.AllowedFrom DataOnce (routing id).system.init es)
    {c : Config V} (hrun : (routing id).system.run es = some c) (n k : Word16) :
    printed sink n k c + underway id n k c ≤ es.countP (brings n k) := by
  have hnone : printed sink n k (routing id).system.init +
      underway id n k (routing id).system.init = 0 := rfl
  have hcost : ∀ c e c', (routing id).system.Reachable DataOnce c → DataOnce c e →
      (routing id).system.step c e = some c' → (routing id).system.Reachable DataOnce c' ∧
        printed sink n k c' + underway id n k c' ≤
          printed sink n k c + underway id n k c + if brings n k e then 1 else 0 := by
    intro c e c' hreach honce hstep
    refine ⟨hreach.step honce hstep, conserved_step hid sink hcast hreach honce ?_ hstep⟩
    rintro v a t fs rfl hhandle
    exact act_conserves (discreet_of_reachable sink hid hreach) hhandle n k
  have hkept := System.runFrom_cost hcost .init es honce hrun
  rwa [hnone, Nat.zero_add] at hkept

/-- Nodes 1 and 2. -/
def pairId (far : Bool) : Word16 := if far then 2 else 1

/-- A source gives node 2 a packet, and node 2 passes it on to the sink. -/
def handedOn : List (Network.Event (fun _ : Bool => Event) (fun _ : Bool => Answers)) :=
  [.act false .booted, .act false (.startDone .success), .act true .booted,
    .act true (.startDone .success), .act false (.timer0Fired .success),
    .deliver 0 true granting, .act true (.sourceData 9 2 sizeofBeaconMsg sample granting),
    .deliver 1 false granting]

theorem data_conserved_pair :
    ∃ c, (routing pairId).system.run handedOn = some c ∧ printed false 100 7 c = 1 ∧
      printed false 100 7 c + underway pairId 100 7 c ≤ handedOn.countP (brings 100 7) := by
  have hrun : (routing pairId).system.run handedOn = some _ := rfl
  exact ⟨_, hrun, by decide, data_conserved (by decide) false (by decide) handedOn (by decide)
    hrun 100 7⟩

end WsnContest.Routing
