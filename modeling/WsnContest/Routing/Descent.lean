import WsnContest.Routing.Data

/-! Where a packet goes while the routes change under it. Metrics only fall, and each
node hands a packet on to one that was below it, so that the packet comes down step by
step; if it ever comes back to a node, that node has found a shorter way meanwhile. -/
namespace WsnContest.Routing
open Tinyos Lib

section Metric
variable (tos : Word16) (s : State)

/-- A better route is the only one that a node takes up. -/
theorem routeReceive_metric_le (len : Word8) (rm : RouteMsg) (ans : Answers) :
    (routeReceive len rm ans s).curMetric ≤ s.curMetric := by
  unfold routeReceive
  dsimp only
  split
  · split
    · next hless =>
      split
      · exact hless.le
      · exact hless.le
    · split
      · exact le_rfl
      · exact le_rfl
  · exact le_rfl

theorem hear_metric_le (ans : Answers) (f : Frame) :
    (hear tos ans f s).1.curMetric ≤ s.curMetric := by
  cases hrm : f.routeMsg with
  | none => exact (congrArg Table.metric (hear_aside tos ans f s hrm).table).le
  | some rm =>
    rcases hear_beacon hrm tos ans s with hheard | hpassed
    · rw [hheard]
      exact routeReceive_metric_le s f.length rm ans
    · rw [hpassed]

theorem handle_metric_eq {tos : Word16} {e : Event} {s t : State} {fs : List Frame}
    (h : handle tos e s = some (t, fs)) : t.curMetric = s.curMetric := by
  cases handle_outcome h with
  | aside haside => exact congrArg Table.metric haside.table
  | beacon _ _ htable => exact congrArg Table.metric htable
  | relay _ _ _ htable => exact congrArg Table.metric htable
  | dropped _ _ _ htable => exact congrArg Table.metric htable

end Metric

variable {V : Type} [DecidableEq V] {id : V → Word16} {sink : V}

/-- In no step does a metric rise. -/
theorem metric_antitone {c c' : Config V}
    {e : Network.Event (fun _ : V => Event) fun _ => Answers}
    (h : (routing id).system.step c e = some c') (w : V) :
    (c'.node w).curMetric ≤ (c.node w).curMetric := by
  obtain ⟨v, a, s, fs, rfl, hhandle, rfl⟩ | ⟨i, v, ans, u, f, rfl, -, rfl⟩ :=
    (routing id).system_step h
  · exact Network.Config.forall_put_node
      (P := fun w (t : State) => t.curMetric ≤ (c.node w).curMetric)
      (handle_metric_eq hhandle).le (fun _ _ => le_rfl) fs w
  · rw [Network.Config.mark_node]
    exact Network.Config.forall_put_node
      (P := fun w (t : State) => t.curMetric ≤ (c.node w).curMetric)
      (hear_metric_le (id v) (c.node v) ans f) (fun _ _ => le_rfl) _ w

/-- The network with a record of which data frame answers which, and of the metric that
its sender had. -/
abbrev traced (id : V → Word16) :
    System (Config V × List (Network.Sent V Frame Word16))
      (Network.Event (fun _ : V => Event) fun _ => Answers) :=
  (routing id).tracing fun _ s => s.curMetric

variable [Fintype V]

/-- A frame for `destination` that was sent at metric `m` comes to the sink or to a node
that is below `m` by now. -/
structure Downhill (id : V → Word16) (sink : V) (c : Config V) (m : ℕ) (destination : Word16) :
    Prop where
  pos : 1 ≤ m
  le_card : m ≤ Fintype.card V
  unicast : destination ≠ broadcastAddr
  lower : ∀ w, id w = destination → w = sink ∨ (c.node w).curMetric.val + 1 ≤ m

omit [DecidableEq V] in
theorem Downhill.mono {c c' : Config V} {m : ℕ} {destination : Word16}
    (h : Downhill id sink c m destination)
    (hfall : ∀ w, (c'.node w).curMetric ≤ (c.node w).curMetric) :
    Downhill id sink c' m destination where
  pos := h.pos
  le_card := h.le_card
  unicast := h.unicast
  lower := fun w hw => (h.lower w hw).imp_right fun hless =>
    (Nat.succ_le_succ (Fin.le_def.mp (hfall w))).trans hless

omit [DecidableEq V] in
/-- What a node with a route hands to its next hop goes down. -/
theorem Sound.downhill {c : Config V} (hs : Sound id sink c) (hid : Function.Injective id)
    (hcast : ∀ v, id v ≠ broadcastAddr) {v : V} (hroute : (c.node v).curMetric.val < noRoute) :
    Downhill id sink c (c.node v).curMetric.val (c.node v).curNexthopNodeId := by
  obtain ⟨u, hnext, -, hdown⟩ := hs.gradient.descends v hroute
  have hname : (c.node v).curNexthopNodeId = id u := hnext
  refine ⟨hs.gradient.rank_pos v hroute, ?_, ?_, fun w hw => ?_⟩
  · exact (hs.gradient.rank_routed v hroute).trans Routes.routed_le_card
  · rw [hname]
    exact hcast u
  · obtain rfl : w = u := hid (hw.trans hname)
    exact hdown

/-- What is known of each data frame that was sent by a node with a route. -/
def Departed (id : V → Word16) (sink : V) (c : Config V) (x : Network.Sent V Frame Word16) :
    Prop :=
  x.frame.isBeacon = true → x.view.val < noRoute →
    Downhill id sink c x.view.val x.frame.destination

/-- What a frame says of the one that answers it. -/
def Descends (sink : V) (x y : Network.Sent V Frame Word16) : Prop :=
  x.frame.isBeacon = true → x.view.val < noRoute → y.sender ≠ sink →
    y.frame.isBeacon = true ∧ y.frame.payload = x.frame.payload ∧ y.view.val < x.view.val

omit [DecidableEq V] in
theorem Sound.departs {c c' : Config V} (hs : Sound id sink c) (hid : Function.Injective id)
    (hcast : ∀ v, id v ≠ broadcastAddr)
    (hfall : ∀ w, (c'.node w).curMetric ≤ (c.node w).curMetric) {v : V} {f₀ : Frame}
    {t : State} {fs : List Frame} (hcarriage : Carriage (id v) (c.node v) f₀ t fs)
    {f : Frame} (hf : f ∈ fs) (cause : Option ℕ) :
    Departed id sink c' ⟨v, f, cause, (c.node v).curMetric⟩ := by
  intro hbeacon hroute
  have hmem : f ∈ dataFrames fs := mem_dataFrames.mpr ⟨hf, hbeacon⟩
  rcases hcarriage.handed with hnone | ⟨-, -, -, hone⟩
  · simp [hnone] at hmem
  · rw [hone] at hmem
    obtain rfl := List.mem_singleton.mp hmem
    exact (hs.downhill hid hcast hroute).mono hfall

/-- Only the data of a frame with one addressee is handed on, whatever the type of the node. -/
theorem hear_answers {tos : Word16} {f : Frame} (hdata : f.isBeacon = true)
    (hunicast : f.destination ≠ broadcastAddr) (ans : Answers) (s : State) :
    ∀ g ∈ (hear tos ans f s).2, g.isBeacon = true := by
  obtain ⟨source, destination, len, payload⟩ := f
  obtain ⟨bm, hpayload⟩ := isBeacon_iff.mp hdata
  dsimp only at hunicast hpayload
  subst hpayload
  intro g hg
  by_cases htaken : s.Takes tos ⟨source, destination, len, .beacon bm⟩
  · rw [hear_of_takes htaken] at hg
    dsimp only at hg
    rw [dataReceive_snd] at hg
    by_cases hlen : len = sizeofBeaconMsg
    · subst hlen
      rw [spread_unicast hunicast] at hg
      rw [forward_frames tos s destination bm ans.dataSent g hg]
      rfl
    · simp [spread_malformed hlen] at hg
  · simp [hear_of_not_takes htaken] at hg

omit [DecidableEq V] in
/-- A node that is reached from above stands lower itself. -/
theorem Sound.answers {c c' : Config V} (hs : Sound id sink c) (hid : Function.Injective id)
    (hcast : ∀ v, id v ≠ broadcastAddr)
    (hfall : ∀ w, (c'.node w).curMetric ≤ (c.node w).curMetric) {i : ℕ} {v : V} {ans : Answers}
    {x : Network.Sent V Frame Word16} (hx : Departed id sink c x) {t : State} {fs : List Frame}
    (hhear : hear (id v) ans x.frame (c.node v) = (t, fs)) {g : Frame} (hg : g ∈ fs) :
    Departed id sink c' ⟨v, g, some i, (c.node v).curMetric⟩ ∧
      Descends sink x ⟨v, g, some i, (c.node v).curMetric⟩ := by
  have hcarriage := hear_carriage (id v) ans x.frame (c.node v)
  rw [hhear] at hcarriage
  refine ⟨hs.departs hid hcast hfall hcarriage hg _, fun hdata hroute haway => ?_⟩
  have hdown := hx hdata hroute
  have hbeacon : g.isBeacon = true := by
    refine @hear_answers (id v) _ hdata hdown.unicast ans (c.node v) g ?_
    rw [hhear]
    exact hg
  have hmem : g ∈ dataFrames fs := mem_dataFrames.mpr ⟨hg, hbeacon⟩
  rcases hcarriage.handed with hnone | ⟨htaken, -, -, hone⟩
  · simp [hnone] at hmem
  · rw [hone] at hmem
    obtain rfl := List.mem_singleton.mp hmem
    have hto : x.frame.destination = id v := htaken.2.resolve_right hdown.unicast
    exact ⟨hbeacon, rfl, (hdown.lower v hto.symm).resolve_left haway⟩

/-- Every data frame goes downhill, and every answer to it is sent from further below. -/
theorem descends_of_reachable (hcard : Fintype.card V < noRoute) (hid : Function.Injective id)
    (hsink : id sink = recvNodeId) (hcast : ∀ v, id v ≠ broadcastAddr)
    {s : Config V × List (Network.Sent V Frame Word16)}
    (h : (traced id).Reachable System.anyStep s) :
    (∀ x ∈ s.2, Departed id sink s.1 x) ∧
      ∀ (j : ℕ) y (i : ℕ), s.2[j]? = some y → y.cause = some i →
        ∃ x, s.2[i]? = some x ∧ Descends sink x y := by
  have hsound : ∀ s, (traced id).Reachable System.anyStep s → Sound id sink s.1 := fun s hs =>
    sound_of_reachable hcard (fun v hv => hid (hv.trans hsink.symm))
      (Network.tracing_reachable hs)
  have h' : (traced id).Reachable (fun s e => System.anyStep s.1 e) s := h
  apply Network.lineage ?_ ?_ ?_ h'
  · intro s e s' _ _ hstep x _ hx hdata hroute
    obtain ⟨c, hc, rfl⟩ := Option.map_eq_some_iff.mp hstep
    exact (hx hdata hroute).mono (metric_antitone hc)
  · intro s v a t fs hreach _ hhandle f hf
    have hfall := metric_antitone ((routing id).system_step_act hhandle)
    rcases handle_carriage hhandle with ⟨_, _, _, _, _, -, hcarriage⟩ | ⟨-, hnone, -⟩
    · exact (hsound s hreach).departs hid hcast hfall hcarriage hf none
    · intro hbeacon
      have hmem : f ∈ dataFrames fs := mem_dataFrames.mpr ⟨hf, hbeacon⟩
      simp [hnone] at hmem
  · intro s i v ans x t fs hreach _ hx hdeparted hhear f hf
    have hlog : s.1.log[i]? = some (x.sender, x.frame) := by
      rw [← Network.tracing_log hreach, List.getElem?_map, hx]
      rfl
    have hfall := metric_antitone ((routing id).system_step_deliver hlog hhear)
    exact (hsound s hreach).answers hid hcast hfall hdeparted hhear hf

omit [DecidableEq V] [Fintype V] in
/-- What holds from one broadcast of a journey to the next holds of the journey. -/
theorem journey_descends {sent : List (Network.Sent V Frame Word16)}
    (hanswers : ∀ (j : ℕ) y (i : ℕ), sent[j]? = some y → y.cause = some i →
      ∃ x, sent[i]? = some x ∧ Descends sink x y)
    (hpos : ∀ x ∈ sent, x.frame.isBeacon = true → x.view.val < noRoute → 1 ≤ x.view.val)
    {path : List ℕ} {i : ℕ} (hjourney : Network.Journey sent (i :: path))
    (haway : ∀ k ∈ path, ∀ y, sent[k]? = some y → y.sender ≠ sink)
    {x : Network.Sent V Frame Word16} (hx : sent[i]? = some x) (hdata : x.frame.isBeacon = true)
    (hroute : x.view.val < noRoute) :
    (∀ k ∈ path, ∃ y, sent[k]? = some y ∧ y.frame.payload = x.frame.payload ∧
      y.view < x.view) ∧
    (i :: path).Pairwise (fun j k => ∃ y z, sent[j]? = some y ∧ sent[k]? = some z ∧
      z.view < y.view) ∧
    (i :: path).length ≤ x.view.val := by
  induction path generalizing i x with
  | nil => exact ⟨by simp, by simp, hpos x (List.mem_of_getElem? hx) hdata hroute⟩
  | cons j path ih =>
    obtain ⟨⟨y, hy, hcause⟩, hrest⟩ := List.isChain_cons_cons.mp hjourney
    obtain ⟨haway_j, haway_path⟩ := List.forall_mem_cons.mp haway
    obtain ⟨x', hx', hdescends⟩ := hanswers j y i hy hcause
    obtain rfl : x' = x := Option.some.inj (hx'.symm.trans hx)
    obtain ⟨hbeacon, hpayload, hless⟩ := hdescends hdata hroute (haway_j y hy)
    obtain ⟨hbelow, hpairs, hlength⟩ := ih hrest haway_path hy hbeacon (hless.trans hroute)
    have hall : ∀ k ∈ j :: path, ∃ z, sent[k]? = some z ∧ z.frame.payload = x'.frame.payload ∧
        z.view < x'.view := by
      refine List.forall_mem_cons.mpr ⟨⟨y, hy, hpayload, hless⟩, fun k hk => ?_⟩
      obtain ⟨z, hz, hsame, hz'⟩ := hbelow k hk
      exact ⟨z, hz, hsame.trans hpayload, hz'.trans hless⟩
    refine ⟨hall, List.pairwise_cons.mpr ⟨fun k hk => ?_, hpairs⟩, ?_⟩
    · obtain ⟨z, hz, -, hz'⟩ := hall k hk
      exact ⟨x', z, hx, hz, hz'⟩
    · rw [List.length_cons]
      exact Nat.succ_le_of_lt (hlength.trans_lt hless)

/-- Whatever becomes of the beacons and of the packet, which may be lost, repeated, delayed
and answered more than once: a packet that a node with a route has sent is sent on
unchanged, each time by a node with a smaller metric than any before, until it comes to
the sink; so it is sent at most as often as the metric of the first sender says. -/
theorem data_descends {V : Type} [DecidableEq V] [Fintype V] (id : V → Word16)
    (hid : Function.Injective id) (sink : V) (hsink : id sink = recvNodeId)
    (hcast : ∀ v, id v ≠ broadcastAddr) (hcard : Fintype.card V < 65535)
    {s : Config V × List (Network.Sent V Frame Word16)}
    (h : (traced id).Reachable System.anyStep s) {i : ℕ} {path : List ℕ}
    (hjourney : Network.Journey s.2 (i :: path))
    (haway : ∀ k ∈ path, ∀ y, s.2[k]? = some y → y.sender ≠ sink)
    {x : Network.Sent V Frame Word16} (hx : s.2[i]? = some x) (hdata : x.frame.isBeacon = true)
    (hroute : x.view < 0xffff) :
    (∀ k ∈ path, ∃ y, s.2[k]? = some y ∧ y.frame.payload = x.frame.payload) ∧
    (i :: path).Pairwise (fun j k => ∃ y z, s.2[j]? = some y ∧ s.2[k]? = some z ∧
      z.view < y.view) ∧
    (i :: path).length ≤ x.view.val ∧ x.view.val ≤ Fintype.card V := by
  obtain ⟨hdeparted, hanswers⟩ := descends_of_reachable hcard hid hsink hcast h
  have hdown := hdeparted x (List.mem_of_getElem? hx) hdata hroute
  obtain ⟨hall, hpairs, hlength⟩ := journey_descends hanswers
    (fun x hx hdata hroute => (hdeparted x hx hdata hroute).pos) hjourney haway hx hdata hroute
  refine ⟨fun k hk => ?_, hpairs, hlength, hdown.le_card⟩
  obtain ⟨y, hy, hsame, -⟩ := hall k hk
  exact ⟨y, hy, hsame⟩

/-- A source hands node 3 a packet that goes to node 2 and from there to the sink. -/
theorem data_descends_two_hops :
    ∃ s : Config (Fin 3) × List (Network.Sent (Fin 3) Frame Word16),
      (traced ![1, 2, 3]).Reachable System.anyStep s ∧ ∃ x, s.2[2]? = some x ∧ x.view = 2 ∧
        x.frame.payload = .beacon sample ∧ [2, 3].length ≤ x.view.val ∧
        [2, 3].Pairwise fun j k => ∃ y z, s.2[j]? = some y ∧ s.2[k]? = some z ∧
          z.view < y.view := by
  have hinit : (traced (![1, 2, 3] : Fin 3 → Word16)).Reachable System.anyStep _ := .init
  have hboot := hinit.step (e := .act 0 .booted) trivial rfl
  have hstart := hboot.step (e := .act 0 (.startDone .success)) trivial rfl
  have hboot₁ := hstart.step (e := .act 1 .booted) trivial rfl
  have hstart₁ := hboot₁.step (e := .act 1 (.startDone .success)) trivial rfl
  have hboot₂ := hstart₁.step (e := .act 2 .booted) trivial rfl
  have hstart₂ := hboot₂.step (e := .act 2 (.startDone .success)) trivial rfl
  have hbeacon := hstart₂.step (e := .act 0 (.timer0Fired .success)) trivial rfl
  have hheard := hbeacon.step (e := .deliver 0 1 granting) trivial rfl
  have hrelay := hheard.step (e := .act 1 (.timer1Fired .success)) trivial rfl
  have hfar := hrelay.step (e := .deliver 1 2 granting) trivial rfl
  have hsource := hfar.step
    (e := .act 2 (.sourceData 9 3 sizeofBeaconMsg sample granting)) trivial rfl
  have hhanded := hsource.step (e := .deliver 2 1 granting) trivial rfl
  have hall := @data_descends (Fin 3) _ _ _ (by decide) 0 rfl (by decide) (by decide) _ hhanded
    2 [3] (.cons_cons ⟨_, rfl, rfl⟩ (.singleton _)) (by decide) _ rfl rfl (by decide)
  exact ⟨_, hhanded, _, rfl, rfl, rfl, hall.2.2.1, hall.2.1⟩

end WsnContest.Routing
