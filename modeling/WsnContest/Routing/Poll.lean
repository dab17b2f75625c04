import WsnContest.Routing.Buffer

/-! The poll of the speakers among the other things a node does: which frames make a
potential speaker, which entries of `is_PSP` they set, and what `isSP` reads there. -/
namespace WsnContest.Routing
open Tinyos Lib

/-- The variables that only the poll writes. -/
structure Poll where
  type : NodeType
  isPSP : Fin pspTableSize → Bool
  strays : List Word16

def State.poll (s : State) : Poll := ⟨s.type, s.isPSP, s.strays⟩

/-- The entry of `is_PSP` for the node `i` is set. -/
def State.Marked (i : Word16) (s : State) : Prop :=
  ∃ h : i.val < pspTableSize, s.isPSP ⟨i.val, h⟩ = true

/-- The stack passes the frame on to its handler. -/
def State.Takes (tos : Word16) (f : Frame) (s : State) : Prop :=
  s.radio = .on ∧ (f.destination = tos ∨ f.destination = broadcastAddr)

instance (tos : Word16) (f : Frame) (s : State) : Decidable (s.Takes tos f) :=
  inferInstanceAs (Decidable (_ ∧ _))

def Frame.isBeacon (f : Frame) : Bool :=
  match f.payload with
  | .beacon _ => true
  | _ => false

/-- A well-formed data frame to everybody: it makes a potential speaker. -/
def Frame.isCall (f : Frame) : Bool :=
  f.isBeacon && f.destination == broadcastAddr && f.length == sizeofBeaconMsg

def Frame.controlMsg (f : Frame) : Option ControlMsg :=
  match f.payload with
  | .control cm => some cm
  | _ => none

/-- The length is that of the payload. -/
def Frame.WellFormed (f : Frame) : Prop := f.length = f.payload.size

@[simp] theorem wellFormed_airedBy (tos addr : Word16) (m : Msg) :
    (airedBy tos addr m).WellFormed := rfl

@[simp] theorem controlMsg_airedBy_beacon (tos addr : Word16) (bm : BeaconMsg) :
    (airedBy tos addr (.beacon bm)).controlMsg = none := rfl

@[simp] theorem controlMsg_airedBy_route (tos addr : Word16) (rm : RouteMsg) :
    (airedBy tos addr (.route rm)).controlMsg = none := rfl

@[simp] theorem controlMsg_airedBy_control (tos addr : Word16) (cm : ControlMsg) :
    (airedBy tos addr (.control cm)).controlMsg = some cm := rfl

theorem mark_of_lt {i : Word16} (hi : i.val < pspTableSize) (s : State) :
    s.mark i = { s with isPSP := Function.update s.isPSP ⟨i.val, hi⟩ true } :=
  dif_pos hi

theorem strays_mark {i : Word16} (hi : i.val < pspTableSize) (s : State) :
    (s.mark i).strays = s.strays := by
  rw [mark_of_lt hi]

theorem marked_mark {i : Word16} (hi : i.val < pspTableSize) (s : State) (j : Word16) :
    (s.mark i).Marked j ↔ j = i ∨ s.Marked j := by
  rw [mark_of_lt hi]
  unfold State.Marked
  by_cases hj : j = i
  · subst hj
    simp [hi]
  · have hne : ∀ h : j.val < pspTableSize, (⟨j.val, h⟩ : Fin pspTableSize) ≠ ⟨i.val, hi⟩ := by
      intro h heq
      exact hj (Fin.ext (Fin.mk.inj heq))
    simp [Function.update_of_ne, hne, hj]

theorem marked_congr {s t : State} (h : t.poll = s.poll) (i : Word16) :
    t.Marked i ↔ s.Marked i := by
  have hisPSP : t.isPSP = s.isPSP := congrArg Poll.isPSP h
  rw [State.Marked, hisPSP, State.Marked]

section Handlers
variable (tos : Word16) (s : State)

theorem poll_forward (destination : Word16) (bm : BeaconMsg) (sent : ErrorT) :
    (forward tos destination bm sent s).1.poll = s.poll := by
  obtain ⟨packet, busy, pending, heq⟩ := forward_eq tos s destination bm sent
  rw [heq]
  rfl

theorem poll_announce (sent : ErrorT) :
    (announce tos sent s).1.poll = ({ s with type := .psp }.mark tos).poll := by
  obtain ⟨packet, busy, pending, locked, heq⟩ := announce_eq tos s sent
  rw [heq]
  rfl

theorem poll_report (source destination : Word16) (bm : BeaconMsg) :
    (report tos source destination bm s).poll = s.poll := by
  obtain ⟨recvData, heq⟩ := report_eq tos s source destination bm
  rw [heq]
  rfl

theorem poll_controlReceive (cm : ControlMsg) (ans : Answers) :
    (controlReceive tos sizeofControlMsg cm ans s).1.poll = (s.mark cm.nodeid).poll := by
  obtain ⟨packet, busy, pending, heq⟩ := controlReceive_eq tos s cm ans
  rw [heq]
  rfl

theorem poll_routeReceive (len : Word8) (rm : RouteMsg) (ans : Answers) :
    (routeReceive len rm ans s).poll = s.poll := by
  obtain ⟨metric, nexthop, id, timer1, heq⟩ := routeReceive_fields s len rm ans
  rw [heq]
  rfl

end Handlers

/-- What a frame that comes in means for the poll: nothing, a call for speakers, or the
name of a potential speaker, which a potential speaker passes on. -/
inductive Hearing (tos : Word16) (s : State) (f : Frame) : State → List Frame → Prop
  | aside {t : State} {fs : List Frame}
      (hidle : s.Takes tos f → f.isCall = false ∧ (f.controlMsg ≠ none → ¬ f.WellFormed))
      (hpoll : t.poll = s.poll) (hframes : ∀ g ∈ fs, g.controlMsg = none ∧ g.WellFormed) :
      Hearing tos s f t fs
  | called {t : State} {fs : List Frame} (htaken : s.Takes tos f) (hcall : f.isCall = true)
      (hpoll : t.poll = ({ s with type := .psp }.mark tos).poll)
      (hframes : ∀ g ∈ fs, (∀ cm ∈ g.controlMsg, cm.nodeid = tos) ∧ g.WellFormed) :
      Hearing tos s f t fs
  | told {t : State} {fs : List Frame} {cm : ControlMsg} (htaken : s.Takes tos f)
      (hcm : f.controlMsg = some cm) (hwell : f.WellFormed)
      (hpoll : t.poll = (s.mark cm.nodeid).poll)
      (hframes : ∀ g ∈ fs, s.type = .psp ∧ g.controlMsg = some cm ∧ g.WellFormed) :
      Hearing tos s f t fs

theorem dataReceive_fst (tos source destination : Word16) (len : Word8) (bm : BeaconMsg)
    (ans : Answers) (s : State) :
    (dataReceive tos source destination len bm ans s).1.poll =
      (spread tos destination len bm ans s).1.poll :=
  poll_report ..

theorem dataReceive_snd (tos source destination : Word16) (len : Word8) (bm : BeaconMsg)
    (ans : Answers) (s : State) :
    (dataReceive tos source destination len bm ans s).2 =
      (spread tos destination len bm ans s).2 := rfl

theorem spread_broadcast (tos : Word16) (bm : BeaconMsg) (ans : Answers) (s : State) :
    spread tos broadcastAddr sizeofBeaconMsg bm ans s =
      ((forward tos broadcastAddr bm ans.dataSent (announce tos ans.controlSent s).1).1,
        (announce tos ans.controlSent s).2 ++
          (forward tos broadcastAddr bm ans.dataSent (announce tos ans.controlSent s).1).2) := rfl

theorem spread_unicast {destination : Word16} (hdest : destination ≠ broadcastAddr)
    (tos : Word16) (bm : BeaconMsg) (ans : Answers) (s : State) :
    spread tos destination sizeofBeaconMsg bm ans s =
      forward tos destination bm ans.dataSent s := by
  simp [spread, hdest]

theorem spread_malformed {len : Word8} (hlen : len ≠ sizeofBeaconMsg) (tos destination : Word16)
    (bm : BeaconMsg) (ans : Answers) (s : State) :
    spread tos destination len bm ans s = (s, []) :=
  if_neg hlen

theorem beacon_hearing {tos source destination : Word16} {len : Word8} {bm : BeaconMsg} {s : State}
    (htaken : s.Takes tos ⟨source, destination, len, .beacon bm⟩) (ans : Answers) :
    Hearing tos s ⟨source, destination, len, .beacon bm⟩
      (dataReceive tos source destination len bm ans s).1
      (dataReceive tos source destination len bm ans s).2 := by
  have hpoll := dataReceive_fst tos source destination len bm ans s
  rw [dataReceive_snd]
  have hforward : ∀ u, ∀ g ∈ (forward tos destination bm ans.dataSent u).2,
      g.controlMsg = none ∧ g.WellFormed := by
    intro u g hg
    rw [forward_frames tos u destination bm ans.dataSent g hg]
    exact ⟨rfl, rfl⟩
  by_cases hlen : len = sizeofBeaconMsg
  · subst hlen
    by_cases hdest : destination = broadcastAddr
    · subst hdest
      rw [spread_broadcast] at hpoll ⊢
      apply Hearing.called htaken rfl
      · exact hpoll.trans ((poll_forward ..).trans (poll_announce tos s ans.controlSent))
      · intro g hg
        rcases List.mem_append.mp hg with hannounced | hforwarded
        · rw [announce_frames tos s ans.controlSent g hannounced]
          simp
        · obtain ⟨hnone, hwell⟩ := hforward _ g hforwarded
          simp [hnone, hwell]
    · rw [spread_unicast hdest] at hpoll ⊢
      apply Hearing.aside
      · simp [Frame.isCall, Frame.controlMsg, hdest]
      · exact hpoll.trans (poll_forward ..)
      · exact hforward s
  · rw [spread_malformed hlen] at hpoll ⊢
    apply Hearing.aside
    · simp [Frame.isCall, Frame.controlMsg, hlen]
    · exact hpoll
    · simp

theorem hear_of_takes {tos : Word16} {f : Frame} {s : State} (h : s.Takes tos f) (ans : Answers) :
    hear tos ans f s = match f.payload with
      | .beacon bm => dataReceive tos f.source f.destination f.length bm ans s
      | .control cm => controlReceive tos f.length cm ans s
      | .route rm => (routeReceive f.length rm ans s, []) :=
  if_pos h

theorem hear_of_not_takes {tos : Word16} {f : Frame} {s : State} (h : ¬ s.Takes tos f)
    (ans : Answers) : hear tos ans f s = (s, []) :=
  if_neg h

theorem hear_hearing (tos : Word16) (ans : Answers) (f : Frame) (s : State) :
    Hearing tos s f (hear tos ans f s).1 (hear tos ans f s).2 := by
  obtain ⟨source, destination, len, payload⟩ := f
  by_cases htaken : s.Takes tos ⟨source, destination, len, payload⟩
  · rw [hear_of_takes htaken]
    cases payload with
    | beacon bm => exact beacon_hearing htaken ans
    | control cm =>
      by_cases hlen : len = sizeofControlMsg
      · subst hlen
        refine .told htaken rfl rfl (poll_controlReceive tos s cm ans) fun g hg => ?_
        obtain ⟨hpsp, rfl⟩ := controlReceive_frames tos s sizeofControlMsg cm ans g hg
        exact ⟨hpsp, rfl, rfl⟩
      · have hmalformed : controlReceive tos len cm ans s = (s, []) := if_neg hlen
        dsimp only
        rw [hmalformed]
        exact .aside (fun _ => ⟨rfl, fun _ => hlen⟩) rfl (by simp)
    | route rm =>
      apply Hearing.aside
      · simp [Frame.isCall, Frame.isBeacon, Frame.controlMsg]
      · exact poll_routeReceive s len rm ans
      · simp
  · rw [hear_of_not_takes htaken]
    exact .aside (fun h => absurd h htaken) rfl (by simp)

/-- What an event of its own means for the poll: only the boot writes to it, and only
the frames of a source are heard. -/
inductive Polling (tos : Word16) (s : State) : Event → State → List Frame → Prop
  | booted : s.radio = .off → Polling tos s .booted (booted tos s) []
  | aside {e : Event} {t : State} {fs : List Frame} : t.poll = s.poll →
      (s.radio ≠ .off → t.radio ≠ .off) → (∀ g ∈ fs, g.controlMsg = none ∧ g.WellFormed) →
      (∀ source destination len bm ans, e ≠ .sourceData source destination len bm ans) →
      Polling tos s e t fs
  | sourceData {source destination : Word16} {len : Word8} {bm : BeaconMsg} {ans : Answers}
      {t : State} {fs : List Frame} :
      hear tos ans ⟨source, destination, len, .beacon bm⟩ s = (t, fs) →
      Polling tos s (.sourceData source destination len bm ans) t fs

theorem handle_polling {tos : Word16} {e : Event} {s t : State} {fs : List Frame}
    (h : handle tos e s = some (t, fs)) : Polling tos s e t fs := by
  have hroutes : (∀ g ∈ fs, ∃ rm, g = airedBy tos broadcastAddr (.route rm)) →
      ∀ g ∈ fs, g.controlMsg = none ∧ g.WellFormed := by
    intro hfs g hg
    obtain ⟨rm, rfl⟩ := hfs g hg
    exact ⟨rfl, rfl⟩
  cases handle_dispatch h with
  | booted hoff => exact .booted hoff
  | @startDone err hstarting =>
    refine .aside ?_ (fun _ => ?_) (by simp) (by simp)
    · obtain ⟨radio, timer0, heq⟩ := startDone_eq err s
      rw [heq]
      rfl
    · unfold startDone
      dsimp only
      split
      · split <;> simp
      · simp [hstarting]
  | @timer0Fired sent _ _ _ hrun =>
    have hframes := timer0Fired_frames tos sent { s with timer0 := none }
    obtain ⟨packet, busy, curId, cnt, timer0, pending, heq⟩ :=
      timer0Fired_eq tos { s with timer0 := none } sent
    rw [hrun] at heq hframes
    obtain rfl := heq
    exact .aside rfl id (hroutes hframes) (by simp)
  | @timer1Fired sent _ _ _ hrun =>
    have hframes := timer1Fired_frames tos sent { s with timer1 := none }
    obtain ⟨packet, pending, heq⟩ := timer1Fired_eq tos { s with timer1 := none } sent
    rw [hrun] at heq hframes
    obtain rfl := heq
    exact .aside rfl id (hroutes hframes) (by simp)
  | sendDone => exact .aside rfl id (by simp) (by simp)
  | sourceData hrun => exact .sourceData hrun

end WsnContest.Routing
