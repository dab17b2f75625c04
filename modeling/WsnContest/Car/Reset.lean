import WsnContest.Car.CommandChain

/-! What the reset command does. It lowers the numbers that the relay and the car
compare with, so that smaller ones count again; it does not tell frames of before
the reset from frames of after it. -/
namespace WsnContest.Reset
open Tinyos Lib Car CommandChain

/-- The number that a car has to see exceeded after it has obeyed these frames. -/
def floor (msgs : List TestCarMsg) : Word32 :=
  match msgs.getLast? with
  | none => 0
  | some msg => if msg.cmd = Cmd.r_.code then 0 else msg.seq

theorem floor_append (msgs : List TestCarMsg) (msg : TestCarMsg) :
    floor (msgs ++ [msg]) = if msg.cmd = Cmd.r_.code then 0 else msg.seq := by
  simp [floor]

section Relay
variable {s : Relay.State} {b : Word32}

theorem threshold_le (rm : TestCarMsg) (s : Relay.State) : Relay.threshold rm s ≤ s.pktID := by
  unfold Relay.threshold
  split
  · exact Fin.zero_le _
  · exact le_rfl

theorem threshold_reset {rm : TestCarMsg} (h : rm.cmd = Cmd.r_.code) (s : Relay.State) :
    Relay.threshold rm s = 0 :=
  if_pos h

theorem pktID_receive_lt {rm : TestCarMsg} (hs : Relay.threshold rm s < b) (hrm : rm.seq < b)
    (sent : ErrorT) : (Relay.receive sent sizeofTestCarMsg rm s).pktID < b := by
  by_cases hnew : Relay.threshold rm s < rm.seq
  · cases hbusy : s.busyRadio with
    | true =>
      rw [Relay.receive_busy sent hnew hbusy]
      exact hs
    | false =>
      rw [Relay.receive_idle sent hnew hbusy]
      dsimp only
      split
      · exact hrm
      · exact hs
  · rw [Relay.receive_old sent hnew]
    exact hs

theorem pktID_run_lt {r : TestCarMsg} {es : List Relay.Event}
    (hes : ∀ m sent, .receive sizeofTestCarMsg m sent ∈ es → r.seq < m.seq → m.seq < b)
    (hr : r.seq < b) {s t : Relay.State × List Relay.Output} (hs : s.1.pktID < b)
    (h : Relay.machine.system.runFrom s es = some t) : t.1.pktID < b := by
  apply Machine.runFrom_invariant (P := fun s => s.1.pktID < b) es ?_ hs h
  intro e he s t out hs hrun
  dsimp only
  cases e with
  | receive len rm sent =>
    obtain ⟨rfl, -⟩ := Prod.mk.inj (Option.some.inj hrun)
    by_cases hlen : len = sizeofTestCarMsg
    · subst hlen
      apply pktID_receive_lt ((threshold_le rm s.1).trans_lt hs)
      by_cases hlater : r.seq < rm.seq
      · exact hes rm sent he hlater
      · exact (not_lt.mp hlater).trans_lt hr
    · rw [Relay.receive_otherSize sent hlen]
      exact hs
  | _ =>
    rw [Relay.step_pktID (by simp) hrun]
    exact hs

theorem seen_of_lt {rm : TestCarMsg} (hnew : s.pktID < rm.seq) (hidle : s.busyRadio = false)
    (sent : ErrorT) : Relay.seen sent sizeofTestCarMsg rm s = [.handed rm sent] := by
  have hthreshold := (threshold_le rm s).trans_lt hnew
  simp [Relay.seen, hthreshold, hidle]

end Relay

section Car
variable {s : CarNode.State} {rm : TestCarMsg}

/-- A new frame is obeyed; its number counts from then on unless it is the reset. -/
theorem receive_new (h : s.seq < rm.seq) (irqs : List (List CarP.Rx)) :
    obeyed (CarNode.receive sizeofTestCarMsg rm irqs s).2 = [rm] ∧
      (CarNode.receive sizeofTestCarMsg rm irqs s).1.seq =
        if rm.cmd = Cmd.r_.code then 0 else rm.seq := by
  unfold CarNode.receive
  rw [if_pos rfl, if_pos h]
  by_cases hreset : rm.cmd = Cmd.r_.code
  · have hobey : ∀ u, CarNode.obey Cmd.r_.code irqs u = ({ u with seq := 0 }, []) := by
      intro u
      rw [CarNode.obey, Cmd.ofCode?_code]
    simp [hobey, hreset, obeyed, obeyedMsg?]
  · have hobey := Unheard.obey hreset irqs { s with seq := rm.seq }
    have hnone := hobey.obeyed
    simp only [obeyed] at hnone
    simp [obeyed, obeyedMsg?, hnone, hobey.seq, hreset]

theorem receive_stale {len : Word8} (h : ¬ (len = sizeofTestCarMsg ∧ s.seq < rm.seq))
    (irqs : List (List CarP.Rx)) : CarNode.receive len rm irqs s = (s, []) := by
  unfold CarNode.receive
  split
  · next hlen => exact if_neg fun hnew => h ⟨hlen, hnew⟩
  · rfl

/-- After a reset the car compares with the frame it obeyed last. -/
theorem seq_eq_floor {es : List CarNode.Input} {s t : CarNode.State × List CarNode.Output}
    (hs : s.1.seq = floor (obeyed s.2))
    (h : CarNode.machine.system.runFrom s es = some t) : t.1.seq = floor (obeyed t.2) := by
  apply Machine.runFrom_invariant (P := fun s => s.1.seq = floor (obeyed s.2)) es ?_ hs h
  intro e _ s t out hs hrun
  dsimp only
  rw [obeyed_append]
  cases e with
  | event e =>
    have hunheard := Unheard.handle hrun
    rw [hunheard.seq, hunheard.obeyed, List.append_nil]
    exact hs
  | frame len rm irqs =>
    have hpair : CarNode.receive len rm irqs s.1 = (t, out) := Option.some.inj hrun
    by_cases hnew : len = sizeofTestCarMsg ∧ s.1.seq < rm.seq
    · obtain ⟨rfl, hnew⟩ := hnew
      obtain ⟨hobeyed, hseq⟩ := receive_new hnew irqs
      rw [hpair] at hobeyed hseq
      rw [hobeyed, hseq, floor_append]
    · obtain ⟨rfl, rfl⟩ := Prod.mk.inj ((receive_stale hnew irqs).symm.trans hpair)
      simpa [obeyed] using hs

theorem seq_run_lt {b : Word32} {r : TestCarMsg} {es : List CarNode.Input}
    (hes : ∀ m irqs, .frame sizeofTestCarMsg m irqs ∈ es → r.seq < m.seq → m.seq < b)
    (hr : r.seq < b) {s t : CarNode.State × List CarNode.Output} (hs : s.1.seq < b)
    (h : CarNode.machine.system.runFrom s es = some t) : t.1.seq < b := by
  apply Machine.runFrom_invariant (P := fun s => s.1.seq < b) es ?_ hs h
  intro e he s t out hs hrun
  dsimp only
  cases e with
  | event e =>
    rw [(Unheard.handle hrun).seq]
    exact hs
  | frame len rm irqs =>
    have hpair : CarNode.receive len rm irqs s.1 = (t, out) := Option.some.inj hrun
    by_cases hnew : len = sizeofTestCarMsg ∧ s.1.seq < rm.seq
    · obtain ⟨rfl, hnew⟩ := hnew
      have hseq := (receive_new hnew irqs).2
      rw [hpair] at hseq
      rw [hseq]
      split
      · exact (Fin.zero_le _).trans_lt hr
      · by_cases hlater : r.seq < rm.seq
        · exact hes rm irqs he hlater
        · exact (not_lt.mp hlater).trans_lt hr
    · obtain ⟨rfl, -⟩ := Prod.mk.inj ((receive_stale hnew irqs).symm.trans hpair)
      exact hs

end Car

/-- Whatever a relay and a car have heard before: after the reset `r` an idle relay
hands on each later frame that is newer than the later ones before it, and a car that
obeys `r` obeys it as well. A frame from before the reset is not told from those: it is
obeyed exactly if its number exceeds that of the last frame obeyed since. -/
theorem reset_forward {r : TestCarMsg} (hr : r.cmd = Cmd.r_.code) :
    (∀ s sent es t, Relay.machine.system.runFrom
        (Relay.receive sent sizeofTestCarMsg r s, []) es = some t → t.1.busyRadio = false →
      ∀ msg sent', r.seq < msg.seq →
        (∀ m sent'', .receive sizeofTestCarMsg m sent'' ∈ es → r.seq < m.seq →
          m.seq < msg.seq) →
        (Relay.machine.step t.1 (.receive sizeofTestCarMsg msg sent')).map Prod.snd =
          some [.handed msg sent']) ∧
    ∀ s irqs es t, s.seq < r.seq → CarNode.machine.system.runFrom
        ((CarNode.receive sizeofTestCarMsg r irqs s).1, []) es = some t →
      ∀ msg irqs',
        (CarNode.machine.step t.1 (.frame sizeofTestCarMsg msg irqs')).map (obeyed ·.2) =
          some (if floor (obeyed t.2) < msg.seq then [msg] else []) ∧
        (r.seq < msg.seq →
          (∀ m irqs'', .frame sizeofTestCarMsg m irqs'' ∈ es → r.seq < m.seq →
            m.seq < msg.seq) →
          (CarNode.machine.step t.1 (.frame sizeofTestCarMsg msg irqs')).map (obeyed ·.2) =
            some [msg]) := by
  constructor
  · intro s sent es t hrun hidle msg sent' hlater hes
    have hstart : (Relay.receive sent sizeofTestCarMsg r s).pktID < msg.seq := by
      apply pktID_receive_lt _ hlater
      rw [threshold_reset hr]
      exact (Fin.zero_le _).trans_lt hlater
    have hnew := pktID_run_lt hes hlater hstart hrun
    exact congrArg some (seen_of_lt hnew hidle sent')
  · intro s irqs es t hnew hrun msg irqs'
    have hzero : (CarNode.receive sizeofTestCarMsg r irqs s).1.seq = 0 := by
      rw [(receive_new hnew irqs).2, if_pos hr]
    have hobeys : t.1.seq < msg.seq →
        (CarNode.machine.step t.1 (.frame sizeofTestCarMsg msg irqs')).map (obeyed ·.2) =
          some [msg] := fun hlt => congrArg some (receive_new hlt irqs').1
    constructor
    · have hfloor := seq_eq_floor (s := (_, [])) hzero hrun
      rw [← hfloor]
      split
      · next hlt => exact hobeys hlt
      · next hge =>
        apply congrArg some
        rw [receive_stale (fun h => hge h.2) irqs']
        rfl
    · intro hlater hes
      apply hobeys
      apply seq_run_lt hes hlater _ hrun
      exact hzero ▸ (Fin.zero_le _).trans_lt hlater

/-- A relay that has handed on number 900 follows a session whose reset is number 1. A car at
800 obeys the reset 900, and after it the number 5 as well. -/
theorem reset_forward_new_session :
    ((Relay.machine.step (Relay.receive .success sizeofTestCarMsg ⟨1, Cmd.r_.code⟩
        { pktID := 900 }) (.receive sizeofTestCarMsg ⟨2, Cmd.w_.code⟩ .success)).map Prod.snd =
      some [.handed ⟨2, Cmd.w_.code⟩ .success]) ∧
    (CarNode.machine.step (CarNode.receive sizeofTestCarMsg ⟨900, Cmd.r_.code⟩ []
        { seq := 800 }).1 (.frame sizeofTestCarMsg ⟨901, Cmd.w_.code⟩ [])).map (obeyed ·.2) =
      some [⟨901, Cmd.w_.code⟩] ∧
    (CarNode.machine.step (CarNode.receive sizeofTestCarMsg ⟨900, Cmd.r_.code⟩ []
        { seq := 800 }).1 (.frame sizeofTestCarMsg ⟨5, Cmd.w_.code⟩ [])).map (obeyed ·.2) =
      some [⟨5, Cmd.w_.code⟩] := by
  have hcar := (reset_forward (r := ⟨900, Cmd.r_.code⟩) rfl).2 { seq := 800 } [] [] _
    (by decide) rfl
  refine ⟨?_, ?_, ?_⟩
  · exact (reset_forward (r := ⟨1, Cmd.r_.code⟩) rfl).1 { pktID := 900 } .success [] _ rfl rfl
      ⟨2, Cmd.w_.code⟩ .success (by decide) (by simp)
  · exact (hcar ⟨901, Cmd.w_.code⟩ []).2 (by decide) (by simp)
  · exact (hcar ⟨5, Cmd.w_.code⟩ []).1

/-- The session types `w`, `r`, `w`, `w` with numbers from 1; the first command is late
and is obeyed after the reset, and of the last two that arrive in the wrong order only
one is. -/
theorem late_command_obeyed :
    commands 1 ['w', 'r', 'w', 'w'] =
      [⟨1, Cmd.w_.code⟩, ⟨2, Cmd.r_.code⟩, ⟨3, Cmd.w_.code⟩, ⟨4, Cmd.w_.code⟩] ∧
    (∃ s, CarNode.machine.system.run [.frame sizeofTestCarMsg ⟨2, Cmd.r_.code⟩ [],
        .frame sizeofTestCarMsg ⟨1, Cmd.w_.code⟩ []] = some s ∧
      obeyed s.2 = [⟨2, Cmd.r_.code⟩, ⟨1, Cmd.w_.code⟩]) ∧
    ∃ s, CarNode.machine.system.run [.frame sizeofTestCarMsg ⟨2, Cmd.r_.code⟩ [],
        .frame sizeofTestCarMsg ⟨4, Cmd.w_.code⟩ [],
        .frame sizeofTestCarMsg ⟨3, Cmd.w_.code⟩ []] = some s ∧
      obeyed s.2 = [⟨2, Cmd.r_.code⟩, ⟨4, Cmd.w_.code⟩] :=
  ⟨by decide, ⟨_, rfl, by decide⟩, ⟨_, rfl, by decide⟩⟩

end WsnContest.Reset
