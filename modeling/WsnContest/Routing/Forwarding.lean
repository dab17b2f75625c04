import WsnContest.Routing.Poll
import WsnContest.Routing.Sink

/-! What a node forwards. A data frame that is addressed to it goes on to the next hop,
unless the node is a potential speaker that is not elected. -/
namespace WsnContest.Routing
open Tinyos Lib

section Attempts
variable {tos : Word16} {s : State}

theorem attempts_unicast (hon : s.radio = .on) (hne : tos ≠ broadcastAddr) {e : NodeEvent}
    {source : Word16} {bm : BeaconMsg}
    (he : e.frame? = some ⟨source, tos, sizeofBeaconMsg, .beacon bm⟩) :
    ∃ sent, attempts tos s e =
      [⟨.beacon bm, s.curNexthopNodeId, !s.busy && (isSP tos s || s.type == .nor), sent⟩] := by
  have hhear : ∀ ans, hearAttempts tos ans ⟨source, tos, sizeofBeaconMsg, .beacon bm⟩ s =
      [⟨.beacon bm, s.curNexthopNodeId, !s.busy && (isSP tos s || s.type == .nor),
        ans.dataSent⟩] := by
    intro ans
    simp [hearAttempts, hon, spreadAttempts, hne, forwardAttempts]
  cases e with
  | heard ans f =>
    obtain rfl := Option.some.inj he
    exact ⟨_, hhear ans⟩
  | own e =>
    cases e with
    | sourceData source' destination len bm' ans =>
      obtain ⟨rfl, rfl, rfl, hpayload⟩ := Frame.mk.inj (Option.some.inj he)
      obtain rfl := Msg.beacon.inj hpayload
      exact ⟨_, hhear ans⟩
    | booted => cases he
    | startDone err => cases he
    | timer0Fired sent => cases he
    | timer1Fired sent => cases he
    | sendDone am err => cases he
  | transmit => cases he

theorem hearAttempts_of_takes {f : Frame} (h : s.Takes tos f) (ans : Answers) :
    hearAttempts tos ans f s = match f.payload with
      | .beacon bm => spreadAttempts tos f.destination f.length bm ans s
      | .control cm => controlAttempts f.length cm ans s
      | .route _ => [] :=
  if_pos h

theorem hearAttempts_of_not_takes {f : Frame} (h : ¬ s.Takes tos f) (ans : Answers) :
    hearAttempts tos ans f s = [] :=
  if_neg h

theorem announce_busy (sent : ErrorT) (h : (announce tos sent s).1.busy = false) :
    s.busy = false := by
  rw [(announce_handles tos s sent).busy, Bool.or_eq_false_iff] at h
  exact h.1

theorem announce_nexthop (sent : ErrorT) :
    (announce tos sent s).1.curNexthopNodeId = s.curNexthopNodeId :=
  congrArg Table.nexthop (announce_aside tos sent s).table

/-- A data frame is handed over as a copy of one that was passed on to the handler. -/
theorem hearAttempts_data {ans : Answers} {f : Frame} {a : Attempt}
    (ha : a ∈ hearAttempts tos ans f s) (hfree : a.free = true) {bm : BeaconMsg}
    (hmsg : a.msg = .beacon bm) :
    s.Takes tos f ∧ f.payload = .beacon bm ∧ f.length = sizeofBeaconMsg ∧ s.busy = false ∧
      a.addr = s.curNexthopNodeId := by
  obtain ⟨source, destination, len, payload⟩ := f
  by_cases htaken : s.Takes tos ⟨source, destination, len, payload⟩
  · rw [hearAttempts_of_takes htaken] at ha
    cases payload with
    | beacon bm' =>
      have hforward : ∀ u : State, a ∈ forwardAttempts tos destination bm' ans.dataSent u →
          bm' = bm ∧ u.busy = false ∧ a.addr = u.curNexthopNodeId := by
        intro u hu
        obtain rfl := List.mem_singleton.mp hu
        simp only [Bool.and_eq_true, Bool.not_eq_true'] at hfree
        exact ⟨Msg.beacon.inj hmsg, hfree.1.1, rfl⟩
      by_cases hlen : len = sizeofBeaconMsg
      · subst hlen
        dsimp only [spreadAttempts] at ha
        rw [if_pos rfl] at ha
        by_cases hdest : destination = broadcastAddr
        · rw [if_pos hdest] at ha
          rcases List.mem_append.mp ha with hannounce | hforwarded
          · obtain rfl := List.mem_singleton.mp hannounce
            cases hmsg
          · obtain ⟨rfl, hbusy, haddr⟩ := hforward _ hforwarded
            rw [announce_nexthop] at haddr
            exact ⟨htaken, rfl, rfl, announce_busy _ hbusy, haddr⟩
        · rw [if_neg hdest] at ha
          obtain ⟨rfl, hbusy, haddr⟩ := hforward s ha
          exact ⟨htaken, rfl, rfl, hbusy, haddr⟩
      · simp [spreadAttempts, hlen] at ha
    | control cm =>
      dsimp only [controlAttempts] at ha
      split at ha
      · obtain rfl := List.mem_singleton.mp ha
        cases hmsg
      · simp at ha
    | route rm => simp at ha
  · simp [hearAttempts_of_not_takes htaken] at ha

theorem attempts_data {e : NodeEvent} {a : Attempt} (ha : a ∈ attempts tos s e)
    (hfree : a.free = true) {bm : BeaconMsg} (hmsg : a.msg = .beacon bm) :
    s.busy = false ∧ a.addr = s.curNexthopNodeId ∧ ∃ f, e.frame? = some f ∧ s.Takes tos f ∧
      f.payload = .beacon bm ∧ f.length = sizeofBeaconMsg := by
  have hheard : ∀ ans f, a ∈ hearAttempts tos ans f s → e.frame? = some f →
      s.busy = false ∧ a.addr = s.curNexthopNodeId ∧ ∃ f, e.frame? = some f ∧ s.Takes tos f ∧
        f.payload = .beacon bm ∧ f.length = sizeofBeaconMsg := by
    intro ans f hf he
    obtain ⟨htaken, hpayload, hlen, hbusy, haddr⟩ := hearAttempts_data hf hfree hmsg
    exact ⟨hbusy, haddr, f, he, htaken, hpayload, hlen⟩
  cases e with
  | heard ans f => exact hheard ans f ha rfl
  | own e =>
    cases e with
    | sourceData source destination len bm' ans => exact hheard ans _ ha rfl
    | timer0Fired sent =>
      dsimp only [attempts] at ha
      split at ha
      · obtain rfl := List.mem_singleton.mp ha
        cases hmsg
      · simp at ha
    | timer1Fired sent =>
      obtain rfl := List.mem_singleton.mp ha
      cases hmsg
    | booted => simp [attempts] at ha
    | startDone err => simp [attempts] at ha
    | sendDone am err => simp [attempts] at ha
  | transmit => simp [attempts] at ha

end Attempts

/-- Only node 1 is ever more than normal or a potential speaker. -/
def Ordinary (s : State) : Prop := s.type = .nor ∨ s.type = .psp

theorem Ordinary.hear {s : State} (h : Ordinary s) (tos : Word16) (ans : Answers) (f : Frame) :
    Ordinary (hear tos ans f s).1 := by
  have hhearing := hear_hearing tos ans f s
  generalize (Routing.hear tos ans f s).1 = t, (Routing.hear tos ans f s).2 = fs at hhearing ⊢
  cases hhearing with
  | aside hidle hpoll hframes =>
    rw [Ordinary, show t.type = s.type from congrArg Poll.type hpoll]
    exact h
  | called htaken hcall hpoll hframes =>
    exact .inr ((congrArg Poll.type hpoll).trans (type_mark _ _))
  | @told cm htaken hcm hwell hpoll hframes =>
    have htype : t.type = s.type := (congrArg Poll.type hpoll).trans (type_mark s cm.nodeid)
    rw [Ordinary, htype]
    exact h

theorem Ordinary.step {tos : Word16} (hsink : tos ≠ recvNodeId) {s t : State} (h : Ordinary s)
    {e : NodeEvent} {out : List Output} (hstep : nodeStep tos s e = some (t, out)) :
    Ordinary t := by
  cases nodeStep_dispatch hstep with
  | booted =>
    rw [booted, if_neg hsink]
    exact h
  | @startDone err =>
    obtain ⟨radio, timer0, heq⟩ := startDone_eq err s
    rw [heq]
    exact h
  | @timer0Fired sent =>
    obtain ⟨packet, busy, curId, cnt, timer0, pending, heq⟩ :=
      timer0Fired_eq tos { s with timer0 := none } sent
    rw [heq]
    exact h
  | @timer1Fired sent =>
    obtain ⟨packet, pending, heq⟩ := timer1Fired_eq tos { s with timer1 := none } sent
    rw [heq]
    exact h
  | sendDone => exact h
  | sourceData => exact h.hear tos _ _
  | heard => exact h.hear tos _ _
  | transmit => exact h

theorem ordinary_of_reachable {tos : Word16} (hsink : tos ≠ recvNodeId) {s : State × List Output}
    (hreach : (machine tos).system.Reachable System.anyStep s) : Ordinary s.1 := by
  apply Machine.invariant (P := fun s => Ordinary s.1) hreach (.inl rfl)
  intro s e t out h _ hnode
  exact h.step hsink hnode

/-- The frames that an event hands over are those of its accepted attempts. -/
theorem frames_eq {tos : Word16} {s t : State} {e : NodeEvent} {out : List Output}
    (h : nodeStep tos s e = some (t, out)) :
    frames out = (attempts tos s e).filterMap (Attempt.frame? tos) := by
  cases nodeStep_effect h with
  | handled he hhandles => exact (frames_handed _).trans hhandles.frames
  | relayed hhandles => exact (frames_handed _).trans hhandles.frames
  | sendDone ham => rfl
  | transmit hout => rfl

/-- At a node other than the sink a data frame that is addressed to it goes to the next
hop exactly if the node is normal or elected; whatever data frame a node hands over is a
copy of one it was given, for the next hop. -/
theorem forwards_iff {tos : Word16} (hsink : tos ≠ recvNodeId) {s t : State × List Output}
    (hreach : (machine tos).system.Reachable System.anyStep s) {e : NodeEvent}
    (hstep : (machine tos).system.step s e = some t) :
    (∀ source bm, e.frame? = some ⟨source, tos, sizeofBeaconMsg, .beacon bm⟩ →
      tos ≠ broadcastAddr → s.1.radio = .on → s.1.busy = false →
      ((∃ a ∈ attempts tos s.1 e, a.free = true ∧ a.msg = .beacon bm ∧
          a.addr = s.1.curNexthopNodeId) ↔ ¬ (s.1.type = .psp ∧ isSP tos s.1 = false))) ∧
    (∀ a ∈ attempts tos s.1 e, a.free = true → ∀ bm, a.msg = .beacon bm → s.1.busy = false ∧
      a.addr = s.1.curNexthopNodeId ∧ ∃ f, e.frame? = some f ∧ s.1.Takes tos f ∧
        f.payload = .beacon bm ∧ f.length = sizeofBeaconMsg) ∧
    ∃ out, t.2 = s.2 ++ out ∧
      frames out = (attempts tos s.1 e).filterMap (Attempt.frame? tos) := by
  refine ⟨?_, fun a ha hfree bm hmsg => attempts_data ha hfree hmsg, ?_⟩
  · intro source bm he hne hon hidle
    obtain ⟨sent, hattempts⟩ := attempts_unicast hon hne he
    have hordinary := ordinary_of_reachable hsink hreach
    have hgate : (isSP tos s.1 || s.1.type == .nor) = true ↔
        ¬ (s.1.type = .psp ∧ isSP tos s.1 = false) := by
      rcases hordinary with hnor | hpsp
      · simp [hnor]
      · simp [hpsp]
    rw [hattempts, ← hgate]
    simp [hidle]
  · obtain ⟨u, out, hnode, rfl⟩ := (machine tos).system_step hstep
    exact ⟨out, rfl, frames_eq hnode⟩

def started : List NodeEvent := [.own .booted, .own (.startDone .success)]

/-- Node 3 hears of node 2, then a source calls it; its own control frame has gone out. -/
def outvoted : List NodeEvent :=
  started ++ [.heard granting (airedBy 2 broadcastAddr (.control ⟨2, 5⟩)),
    .own (.sourceData 100 broadcastAddr sizeofBeaconMsg sample granting),
    .own (.sendDone .control .success)]

/-- A source gives node 3 a data frame. -/
def request : NodeEvent := .own (.sourceData 100 3 sizeofBeaconMsg sample granting)

/-- Node 3 learns a route by node 2, hears of node 4 and is called: the smaller of the two. -/
def inCharge : List NodeEvent :=
  started ++ [.heard granting (airedBy 2 broadcastAddr (.route ⟨1, 2, 3⟩)),
    .heard granting (airedBy 4 broadcastAddr (.control ⟨4, 5⟩)),
    .own (.sourceData 100 broadcastAddr sizeofBeaconMsg sample granting),
    .own (.sendDone .control .success)]

theorem forwards_inCharge :
    ∃ s, (machine 3).system.run inCharge = some s ∧ s.1.type = .psp ∧
      s.1.curNexthopNodeId = 2 ∧ ∃ a ∈ attempts 3 s.1 request,
        a.free = true ∧ a.msg = .beacon sample ∧ a.addr = s.1.curNexthopNodeId := by
  have hinit : (machine 3).system.Reachable System.anyStep _ := .init
  have hreach := System.reachable_of_runFrom hinit inCharge (by decide) rfl
  have hforwards := forwards_iff (by decide) hreach (e := request) rfl
  exact ⟨_, rfl, rfl, rfl, (hforwards.1 100 sample rfl (by decide) rfl rfl).mpr (by decide)⟩

/-- A potential speaker that is not elected drops what is addressed to it though it is not
busy; a node that has no route sends what it is given to node 0. -/
theorem request_dropped :
    (∃ s, (machine 3).system.run outvoted = some s ∧ s.1.radio = .on ∧ s.1.busy = false ∧
      ∀ a ∈ attempts 3 s.1 request, a.free = false) ∧
    ∃ s, (machine 3).system.run started = some s ∧ s.1.curMetric = 0xffff ∧
      ∃ a ∈ attempts 3 s.1 request, a.free = true ∧ a.msg = .beacon sample := by
  refine ⟨⟨_, rfl, rfl, rfl, ?_⟩, ⟨_, rfl, rfl, _, .head _, ?_, rfl⟩⟩
  · decide
  · decide

end WsnContest.Routing
