import WsnContest.Lib.Lineage
import WsnContest.Routing.LoopFree
import WsnContest.Routing.Poll

/-! Data frames on their way to the sink. Routes change while a packet travels, and a
packet may even come back to a node; but metrics only fall, and each hop leads down. -/
namespace WsnContest.Routing
open Tinyos Lib

/-- The data frames among those that a handler hands over. -/
def dataFrames (fs : List Frame) : List Frame := fs.filter Frame.isBeacon

@[simp] theorem dataFrames_nil : dataFrames [] = [] := rfl

@[simp] theorem dataFrames_append (fs gs : List Frame) :
    dataFrames (fs ++ gs) = dataFrames fs ++ dataFrames gs := List.filter_append ..

theorem mem_dataFrames {fs : List Frame} {f : Frame} :
    f ∈ dataFrames fs ↔ f ∈ fs ∧ f.isBeacon = true := List.mem_filter

theorem isBeacon_iff {f : Frame} : f.isBeacon = true ↔ ∃ bm, f.payload = .beacon bm := by
  obtain ⟨source, destination, length, payload⟩ := f
  cases payload <;> simp [Frame.isBeacon]

theorem dataFrames_of_none {fs : List Frame} (h : ∀ f ∈ fs, f.isBeacon = false) :
    dataFrames fs = [] :=
  List.filter_eq_nil_iff.mpr fun f hf => by simp [h f hf]

section Handlers
variable (tos : Word16) (s : State)

theorem forward_data (destination : Word16) (bm : BeaconMsg) (sent : ErrorT) :
    dataFrames (forward tos destination bm sent s).2 = [] ∨
      s.busy = false ∧ (isSP tos s = true ∨ s.type = .nor) ∧
        dataFrames (forward tos destination bm sent s).2 =
          [airedBy tos s.curNexthopNodeId (.beacon bm)] := by
  unfold forward
  dsimp only
  split
  · next hgate =>
    split
    · right
      simp only [Bool.and_eq_true, Bool.or_eq_true, Bool.not_eq_true', beq_iff_eq] at hgate
      exact ⟨hgate.1.1, hgate.1.2, rfl⟩
    · exact .inl rfl
  · exact .inl rfl

theorem announce_data (sent : ErrorT) : dataFrames (announce tos sent s).2 = [] := by
  apply dataFrames_of_none
  intro f hf
  rw [announce_frames tos s sent f hf]
  rfl

theorem announce_recvData (sent : ErrorT) : (announce tos sent s).1.recvData = s.recvData := by
  obtain ⟨packet, busy, pending, locked, heq⟩ := announce_eq tos s sent
  obtain ⟨isPSP, strays, hmark⟩ := mark_eq { s with type := .psp } tos
  rw [heq, hmark]

theorem forward_recvData (destination : Word16) (bm : BeaconMsg) (sent : ErrorT) :
    (forward tos destination bm sent s).1.recvData = s.recvData ∧
      (forward tos destination bm sent s).1.type = s.type := by
  obtain ⟨packet, busy, pending, heq⟩ := forward_eq tos s destination bm sent
  rw [heq]
  exact ⟨rfl, rfl⟩

end Handlers

/-- What becomes of the data in a frame that comes in: a copy for the next hop, a line of
the sink, both of them only at a sink that is elected, or nothing. -/
structure Carriage (tos : Word16) (s : State) (f : Frame) (t : State) (fs : List Frame) :
    Prop where
  handed : dataFrames fs = [] ∨ s.Takes tos f ∧ f.isBeacon = true ∧
    f.length = sizeofBeaconMsg ∧ dataFrames fs = [airedBy tos s.curNexthopNodeId f.payload]
  printed : t.recvData = s.recvData ∨ s.Takes tos f ∧ f.destination = tos ∧ s.type = .dst ∧
    ∃ bm, f.payload = .beacon bm ∧
      t.recvData = s.recvData ++ [(f.source, bm.nodeid, bm.counter)]
  gate : f.destination ≠ broadcastAddr → dataFrames fs ≠ [] → isSP tos s = true ∨ s.type = .nor
  either : isSP tos s = false → t.recvData = s.recvData ∨ dataFrames fs = []

/-- A frame without data carries none on. -/
theorem Carriage.none {tos : Word16} {s t : State} {f : Frame} {fs : List Frame}
    (hfs : ∀ g ∈ fs, g.isBeacon = false) (ht : t.recvData = s.recvData) :
    Carriage tos s f t fs :=
  ⟨.inl (dataFrames_of_none hfs), .inl ht,
    fun _ hsome => absurd (dataFrames_of_none hfs) hsome, fun _ => .inl ht⟩

section Receive
variable {tos source destination : Word16} {len : Word8} {bm : BeaconMsg} {s : State}

theorem report_recvData (s : State) :
    (report tos source destination bm s).recvData = s.recvData ∨
      destination = tos ∧ s.type = .dst ∧
        (report tos source destination bm s).recvData =
          s.recvData ++ [(source, bm.nodeid, bm.counter)] := by
  unfold report
  split
  · next h => exact .inr ⟨h.2, h.1, rfl⟩
  · exact .inl rfl

/-- A data frame to everybody is never printed, for the node is no destination any more. -/
theorem broadcast_carriage
    (htaken : s.Takes tos ⟨source, broadcastAddr, sizeofBeaconMsg, .beacon bm⟩) (ans : Answers) :
    Carriage tos s ⟨source, broadcastAddr, sizeofBeaconMsg, .beacon bm⟩
      (dataReceive tos source broadcastAddr sizeofBeaconMsg bm ans s).1
      (dataReceive tos source broadcastAddr sizeofBeaconMsg bm ans s).2 := by
  have hnext : (announce tos ans.controlSent s).1.curNexthopNodeId = s.curNexthopNodeId :=
    congrArg Table.nexthop (announce_aside tos ans.controlSent s).table
  have htype : (announce tos ans.controlSent s).1.type = .psp := by
    have hpoll := poll_announce tos s ans.controlSent
    exact (congrArg Poll.type hpoll).trans (type_mark _ _)
  obtain ⟨hrecv, htype'⟩ := forward_recvData tos (announce tos ans.controlSent s).1 broadcastAddr
    bm ans.dataSent
  have hreport : (dataReceive tos source broadcastAddr sizeofBeaconMsg bm ans s).1.recvData =
      s.recvData := by
    rcases @report_recvData tos source broadcastAddr bm
      (spread tos broadcastAddr sizeofBeaconMsg bm ans s).1 with hsame | ⟨-, hdst, -⟩
    · refine hsame.trans ?_
      rw [spread_broadcast]
      exact hrecv.trans (announce_recvData tos s ans.controlSent)
    · rw [spread_broadcast] at hdst
      rw [htype', htype] at hdst
      cases hdst
  refine ⟨?_, .inl hreport, fun hunicast => absurd rfl hunicast, fun _ => .inl hreport⟩
  rw [dataReceive_snd, spread_broadcast, dataFrames_append, announce_data, List.nil_append]
  rcases forward_data tos (announce tos ans.controlSent s).1 broadcastAddr bm ans.dataSent with
    hnone | ⟨-, -, hone⟩
  · exact .inl hnone
  · rw [hnext] at hone
    exact .inr ⟨htaken, rfl, rfl, hone⟩

theorem unicast_carriage (hdest : destination ≠ broadcastAddr)
    (htaken : s.Takes tos ⟨source, destination, sizeofBeaconMsg, .beacon bm⟩) (ans : Answers) :
    Carriage tos s ⟨source, destination, sizeofBeaconMsg, .beacon bm⟩
      (dataReceive tos source destination sizeofBeaconMsg bm ans s).1
      (dataReceive tos source destination sizeofBeaconMsg bm ans s).2 := by
  obtain ⟨hrecv, htype⟩ := forward_recvData tos s destination bm ans.dataSent
  have hspread := spread_unicast hdest tos bm ans s
  have hprinted := @report_recvData tos source destination bm
    (spread tos destination sizeofBeaconMsg bm ans s).1
  rw [hspread, hrecv, htype] at hprinted
  have hfst : (dataReceive tos source destination sizeofBeaconMsg bm ans s).1.recvData =
      (report tos source destination bm
        (forward tos destination bm ans.dataSent s).1).recvData := by
    rw [dataReceive, hspread]
  refine ⟨?_, ?_, fun _ hsome => ?_, ?_⟩
  · rw [dataReceive_snd, hspread]
    exact (forward_data tos s destination bm ans.dataSent).imp_right fun ⟨_, _, hone⟩ =>
      ⟨htaken, rfl, rfl, hone⟩
  · rw [hfst]
    exact hprinted.imp_right fun ⟨hto, hdst, hline⟩ => ⟨htaken, hto, hdst, bm, rfl, hline⟩
  · rw [dataReceive_snd, hspread] at hsome
    exact ((forward_data tos s destination bm ans.dataSent).resolve_left hsome).2.1
  · intro hunelected
    rw [hfst, dataReceive_snd, hspread]
    rcases hprinted with hsame | ⟨-, hdst, -⟩
    · exact .inl hsame
    · right
      rcases forward_data tos s destination bm ans.dataSent with hnone | ⟨-, hgate, -⟩
      · exact hnone
      · simp [hunelected, hdst] at hgate

theorem hear_carriage (tos : Word16) (ans : Answers) (f : Frame) (s : State) :
    Carriage tos s f (hear tos ans f s).1 (hear tos ans f s).2 := by
  obtain ⟨source, destination, len, payload⟩ := f
  by_cases htaken : s.Takes tos ⟨source, destination, len, payload⟩
  · rw [hear_of_takes htaken]
    cases payload with
    | beacon bm =>
      by_cases hlen : len = sizeofBeaconMsg
      · subst hlen
        by_cases hdest : destination = broadcastAddr
        · subst hdest
          exact broadcast_carriage htaken ans
        · exact unicast_carriage hdest htaken ans
      · have hprinted := @report_recvData tos source destination bm s
        have hsnd : (dataReceive tos source destination len bm ans s).2 = [] := by
          rw [dataReceive_snd, spread_malformed hlen]
        have hfst : (dataReceive tos source destination len bm ans s).1 =
            report tos source destination bm s := by
          rw [dataReceive, spread_malformed hlen]
        dsimp only
        rw [hfst, hsnd]
        refine ⟨.inl rfl, ?_, fun _ hsome => absurd rfl hsome, fun _ => .inr rfl⟩
        exact hprinted.imp_right fun ⟨hto, hdst, hline⟩ => ⟨htaken, hto, hdst, bm, rfl, hline⟩
    | control cm =>
      refine .none (fun g hg => ?_) ?_
      · rw [(controlReceive_frames tos s len cm ans g hg).2]
        rfl
      · dsimp only
        by_cases hlen : len = sizeofControlMsg
        · subst hlen
          obtain ⟨packet, busy, pending, heq⟩ := controlReceive_eq tos s cm ans
          obtain ⟨isPSP, strays, hmark⟩ := mark_eq s cm.nodeid
          rw [heq, hmark]
        · rw [controlReceive, if_neg hlen]
    | route rm =>
      refine .none (by simp) ?_
      obtain ⟨metric, nexthop, id, timer1, heq⟩ := routeReceive_fields s len rm ans
      dsimp only
      rw [heq]
  · rw [hear_of_not_takes htaken]
    exact .none (by simp) rfl

end Receive

/-- By itself a node has no data to carry: what it does not hear from a source or from
another node it neither hands over nor prints. -/
theorem handle_carriage {tos : Word16} {e : Event} {s t : State} {fs : List Frame}
    (h : handle tos e s = some (t, fs)) :
    (∃ source destination len bm ans, e = .sourceData source destination len bm ans ∧
      Carriage tos s ⟨source, destination, len, .beacon bm⟩ t fs) ∨
    (∀ source destination len bm ans, e ≠ .sourceData source destination len bm ans) ∧
      dataFrames fs = [] ∧ t.recvData = s.recvData := by
  have hroutes : (∀ g ∈ fs, ∃ rm, g = airedBy tos broadcastAddr (.route rm)) →
      dataFrames fs = [] := by
    intro hfs
    apply dataFrames_of_none
    intro g hg
    obtain ⟨rm, rfl⟩ := hfs g hg
    rfl
  cases handle_dispatch h with
  | booted =>
    obtain ⟨type, radio, heq⟩ := booted_eq tos s
    exact .inr ⟨by simp, rfl, by rw [heq]⟩
  | @startDone err =>
    obtain ⟨radio, timer0, heq⟩ := startDone_eq err s
    exact .inr ⟨by simp, rfl, by rw [heq]⟩
  | @timer0Fired sent _ _ _ hrun =>
    have hframes := timer0Fired_frames tos sent { s with timer0 := none }
    obtain ⟨packet, busy, curId, cnt, timer0, pending, heq⟩ :=
      timer0Fired_eq tos { s with timer0 := none } sent
    rw [hrun] at heq hframes
    obtain rfl := heq
    exact .inr ⟨by simp, hroutes hframes, rfl⟩
  | @timer1Fired sent _ _ _ hrun =>
    have hframes := timer1Fired_frames tos sent { s with timer1 := none }
    obtain ⟨packet, pending, heq⟩ := timer1Fired_eq tos { s with timer1 := none } sent
    rw [hrun] at heq hframes
    obtain rfl := heq
    exact .inr ⟨by simp, hroutes hframes, rfl⟩
  | sendDone => exact .inr ⟨by simp, rfl, rfl⟩
  | @sourceData source destination len bm ans _ _ hrun =>
    have hcarriage := hear_carriage tos ans ⟨source, destination, len, .beacon bm⟩ s
    rw [hrun] at hcarriage
    exact .inl ⟨source, destination, len, bm, ans, rfl, hcarriage⟩

end WsnContest.Routing
