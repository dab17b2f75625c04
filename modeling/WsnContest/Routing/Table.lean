import WsnContest.Routing.Air
import WsnContest.Routing.Election
import WsnContest.Routing.Sink

/-! The accesses to `is_PSP`. The table has 255 entries, the names that index it are ids of
16 bits, and the counter that `isSP` reads it with has 8. -/
namespace WsnContest.Routing
open Tinyos Lib

theorem counter_next {i : Word8} (h : i.val < pspTableSize) : (i + 1).val = i.val + 1 :=
  Fin.val_add_one_of_lt' (Nat.succ_lt_succ h)

/-- The values of the counter in a loop of `isSP`, from `i` on. -/
def counter (i : Word8) : List Word8 :=
  if i.val < pspTableSize then i :: counter (i + 1) else []
termination_by pspTableSize - i.val
decreasing_by
  rw [counter_next ‹_›]
  omega

/-- The second loop of `isSP`, which stops at the first entry that is set. -/
def scan (isPSP : Fin pspTableSize → Bool) (i : Word8) : Option Word8 :=
  if h : i.val < pspTableSize then
    if isPSP ⟨i.val, h⟩ then some i else scan isPSP (i + 1)
  else none
termination_by pspTableSize - i.val
decreasing_by
  rw [counter_next h]
  omega

/-- The counter leaves the loop before it wraps. -/
theorem map_counter (i : Word8) :
    (counter i).map Fin.val = List.range' i.val (pspTableSize - i.val) := by
  fun_induction counter i with
  | case1 i hlt ih =>
    have hsize : pspTableSize - i.val = pspTableSize - (i.val + 1) + 1 := by omega
    rw [List.map_cons, ih, counter_next hlt, hsize, List.range'_succ]
  | case2 i hge =>
    rw [Nat.sub_eq_zero_of_le (not_lt.mp hge)]
    rfl

/-- The loops look at every entry of the table. -/
theorem mem_counter {i : Word8} : i ∈ counter 0 ↔ i.val < pspTableSize := by
  rw [← List.mem_map_of_injective Fin.val_injective, map_counter, List.mem_range'_1]
  simp

/-- A search may begin behind an entry that is clear. -/
theorem clear_from {isPSP : Fin pspTableSize → Bool} {i : ℕ} (h : i < pspTableSize)
    (hclear : ¬ isPSP ⟨i, h⟩ = true) {j : Fin pspTableSize} (hj : i ≤ j.val)
    (hafter : i + 1 ≤ j.val → isPSP j = false) : isPSP j = false := by
  rcases Nat.eq_or_lt_of_le hj with heq | hnext
  · obtain rfl : j = ⟨i, h⟩ := Fin.ext heq.symm
    exact Bool.eq_false_iff.mpr hclear
  · exact hafter hnext

/-- The scan finds the first entry that is set. -/
theorem scan_eq_some {isPSP : Fin pspTableSize → Bool} {i k : Word8} :
    scan isPSP i = some k ↔
      i.val ≤ k.val ∧ (∃ h : k.val < pspTableSize, isPSP ⟨k.val, h⟩ = true) ∧
        ∀ j : Fin pspTableSize, i.val ≤ j.val → j.val < k.val → isPSP j = false := by
  fun_induction scan isPSP i with
  | case1 i h hset =>
    constructor
    · rintro ⟨⟩
      exact ⟨le_rfl, ⟨h, hset⟩, fun j hle hlt => absurd hlt (not_lt.mpr hle)⟩
    · rintro ⟨hle, -, hclear⟩
      by_contra hne
      have hlt : i.val < k.val := lt_of_le_of_ne hle fun heq => hne (congrArg some (Fin.ext heq))
      exact Bool.false_ne_true ((hclear ⟨i.val, h⟩ le_rfl hlt).symm.trans hset)
  | case2 i h hclear ih =>
    rw [ih, counter_next h]
    constructor
    · rintro ⟨hle, hset, hbefore⟩
      exact ⟨by omega, hset, fun j hj hlt => clear_from h hclear hj (hbefore j · hlt)⟩
    · rintro ⟨hle, ⟨hk, hset⟩, hbefore⟩
      have hne : i.val ≠ k.val := by
        intro heq
        obtain rfl : i = k := Fin.ext heq
        exact hclear hset
      exact ⟨by omega, ⟨hk, hset⟩, fun j hj => hbefore j (by omega)⟩
  | case3 i hge =>
    constructor
    · rintro ⟨⟩
    · rintro ⟨hle, ⟨hk, -⟩, -⟩
      omega

theorem scan_eq_none {isPSP : Fin pspTableSize → Bool} {i : Word8} :
    scan isPSP i = none ↔ ∀ j : Fin pspTableSize, i.val ≤ j.val → isPSP j = false := by
  fun_induction scan isPSP i with
  | case1 i h hset =>
    refine iff_of_false (by simp) fun hclear => ?_
    exact Bool.false_ne_true ((hclear ⟨i.val, h⟩ le_rfl).symm.trans hset)
  | case2 i h hclear ih =>
    rw [ih, counter_next h]
    constructor
    · exact fun hafter j hj => clear_from h hclear hj (hafter j)
    · exact fun hall j hj => hall j (by omega)
  | case3 i hge =>
    exact iff_of_true rfl fun j hj => absurd (hj.trans_lt j.isLt) hge

/-- An entry that is set is found, or a smaller one. -/
theorem scan_of_marked {s : State} {i : Word16} (h : s.Marked i) :
    ∃ k, scan s.isPSP 0 = some k ∧ k.val ≤ i.val := by
  obtain ⟨hi, hset⟩ := h
  cases hscan : scan s.isPSP 0 with
  | none =>
    have hclear := scan_eq_none.mp hscan ⟨i.val, hi⟩ (Nat.zero_le _)
    exact absurd (hclear.symm.trans hset) Bool.false_ne_true
  | some k =>
    refine ⟨k, rfl, ?_⟩
    by_contra hless
    have hclear := (scan_eq_some.mp hscan).2.2 ⟨i.val, hi⟩ (Nat.zero_le _) (not_le.mp hless)
    exact Bool.false_ne_true (hclear.symm.trans hset)

/-- `isSP` compares the id with the entry at which the counter stops. -/
theorem isSP_scan (tos : Word16) (s : State) :
    isSP tos s = true ↔ ∃ k, scan s.isPSP 0 = some k ∧ tos.val = k.val := by
  rw [isSP_iff]
  constructor
  · rintro ⟨⟨htos, hset⟩, hleast⟩
    have hbyte : tos.val < 2 ^ 8 := htos.trans (by decide)
    refine ⟨⟨tos.val, hbyte⟩, scan_eq_some.mpr ⟨Nat.zero_le _, ⟨htos, hset⟩, ?_⟩, rfl⟩
    intro j _ hlt
    by_contra hmarked
    have hword : j.val < 2 ^ 16 := j.isLt.trans (by decide)
    have hle := hleast ⟨j.val, hword⟩ ⟨j.isLt, Bool.eq_true_of_not_eq_false hmarked⟩
    exact absurd hlt (not_lt.mpr hle)
  · rintro ⟨k, hscan, htos⟩
    obtain ⟨-, ⟨hk, hset⟩, hclear⟩ := scan_eq_some.mp hscan
    refine ⟨⟨htos ▸ hk, by simpa only [htos] using hset⟩, ?_⟩
    rintro i ⟨hi, hmarked⟩
    by_contra hless
    have hlt : i.val < k.val := htos ▸ not_le.mp hless
    exact Bool.false_ne_true ((hclear ⟨i.val, hi⟩ (Nat.zero_le _) hlt).symm.trans hmarked)

/-- The indices of the writes to `is_PSP` that a frame causes: `TOS_NODE_ID` for a data
frame to everybody, and the name in a control frame. -/
def stores (tos : Word16) (f : Frame) (s : State) : List Word16 :=
  if s.Takes tos f then
    match f.payload with
    | .beacon _ =>
      if f.length = sizeofBeaconMsg ∧ f.destination = broadcastAddr then [tos] else []
    | .control cm => if f.length = sizeofControlMsg then [cm.nodeid] else []
    | .route _ => []
  else []

/-- The same for whatever happens to a node. -/
def storesAt (tos : Word16) (e : NodeEvent) (s : State) : List Word16 :=
  match e.frame? with
  | some f => stores tos f s
  | none => []

section Stores
variable {tos : Word16} {f : Frame} {s : State}

theorem stores_aside
    (h : s.Takes tos f → f.isCall = false ∧ (f.controlMsg ≠ none → ¬ f.WellFormed)) :
    stores tos f s = [] := by
  unfold stores
  split
  · next htaken =>
    obtain ⟨hcall, hcontrol⟩ := h htaken
    obtain ⟨source, destination, len, payload⟩ := f
    cases payload with
    | beacon bm =>
      have hnot : destination = broadcastAddr → ¬ len = sizeofBeaconMsg := by
        simpa [Frame.isCall, Frame.isBeacon] using hcall
      exact if_neg fun hboth => hnot hboth.2 hboth.1
    | control cm => exact if_neg (hcontrol (Option.some_ne_none cm))
    | route rm => rfl
  · rfl

theorem stores_called (htaken : s.Takes tos f) (hcall : f.isCall = true) :
    stores tos f s = [tos] := by
  obtain ⟨source, destination, len, payload⟩ := f
  rw [stores, if_pos htaken]
  cases payload with
  | beacon bm =>
    simp only [Frame.isCall, Bool.and_eq_true, beq_iff_eq] at hcall
    exact if_pos ⟨hcall.2, hcall.1.2⟩
  | control cm => simp [Frame.isCall, Frame.isBeacon] at hcall
  | route rm => simp [Frame.isCall, Frame.isBeacon] at hcall

theorem stores_told {cm : ControlMsg} (htaken : s.Takes tos f) (hcm : f.controlMsg = some cm)
    (hwell : f.WellFormed) : stores tos f s = [cm.nodeid] := by
  obtain ⟨source, destination, len, payload⟩ := f
  rw [stores, if_pos htaken]
  cases payload with
  | beacon bm => cases hcm
  | control cm' =>
    cases hcm
    exact if_pos hwell
  | route rm => cases hcm

theorem mem_stores {i : Word16} (h : i ∈ stores tos f s) :
    s.Takes tos f ∧ (f.isCall = true ∧ i = tos ∨
      ∃ cm, f.payload = .control cm ∧ f.length = sizeofControlMsg ∧ i = cm.nodeid) := by
  obtain ⟨source, destination, len, payload⟩ := f
  obtain ⟨htaken, h⟩ := List.mem_ite_nil_right.mp h
  refine ⟨htaken, ?_⟩
  cases payload with
  | beacon bm =>
    obtain ⟨⟨hlen, hbroadcast⟩, hi⟩ := List.mem_ite_nil_right.mp h
    exact .inl ⟨by simp_all [Frame.isCall, Frame.isBeacon], List.mem_singleton.mp hi⟩
  | control cm =>
    obtain ⟨hlen, hi⟩ := List.mem_ite_nil_right.mp h
    exact .inr ⟨cm, rfl, hlen, List.mem_singleton.mp hi⟩
  | route rm => cases h

end Stores

/-- The writes that a node has noted are those its table shows, and the strays. -/
structure Noted (n : State × List Word16) : Prop where
  marked : ∀ i, n.1.Marked i ↔ i ∈ n.2 ∧ i.val < pspTableSize
  strays : n.1.strays = n.2.filter fun i => pspTableSize ≤ i.val

theorem noted_init : Noted ({}, []) := ⟨by simp [State.Marked], rfl⟩

section Noted
variable {s t : State} {l : List Word16}

theorem Noted.congr (h : Noted (s, l)) (hisPSP : t.isPSP = s.isPSP)
    (hstrays : t.strays = s.strays) : Noted (t, l) := by
  refine ⟨fun i => ?_, hstrays.trans h.strays⟩
  rw [State.Marked, hisPSP]
  exact h.marked i

theorem Noted.of_poll (h : Noted (s, l)) (hpoll : t.poll = s.poll) : Noted (t, l) :=
  h.congr (congrArg Poll.isPSP hpoll) (congrArg Poll.strays hpoll)

/-- One write more. -/
theorem Noted.mark (h : Noted (s, l)) (i : Word16) : Noted (s.mark i, l ++ [i]) := by
  have hstrays : s.strays = l.filter fun i => pspTableSize ≤ i.val := h.strays
  by_cases hi : i.val < pspTableSize
  · constructor
    · intro j
      rw [marked_mark hi, h.marked]
      simp only [List.mem_append, List.mem_singleton]
      constructor
      · rintro (rfl | ⟨hj, hlt⟩)
        · exact ⟨.inr rfl, hi⟩
        · exact ⟨.inl hj, hlt⟩
      · rintro ⟨hj | rfl, hlt⟩
        · exact .inr ⟨hj, hlt⟩
        · exact .inl rfl
    · simp [strays_mark hi, hstrays, hi]
  · have hmark : s.mark i = { s with strays := s.strays ++ [i] } := dif_neg hi
    rw [hmark]
    constructor
    · intro j
      refine (h.marked j).trans ?_
      simp only [List.mem_append, List.mem_singleton]
      constructor
      · rintro ⟨hj, hlt⟩
        exact ⟨.inl hj, hlt⟩
      · rintro ⟨hj | rfl, hlt⟩
        · exact ⟨hj, hlt⟩
        · exact absurd hlt hi
    · simp [hstrays, not_lt.mp hi]

/-- A frame causes the writes that are noted, and no others. -/
theorem Noted.hear (h : Noted (s, l)) (tos : Word16) (ans : Answers) (f : Frame) :
    Noted ((hear tos ans f s).1, l ++ stores tos f s) := by
  cases hear_hearing tos ans f s with
  | aside hidle hpoll =>
    rw [stores_aside hidle, List.append_nil]
    exact h.of_poll hpoll
  | called htaken hcall hpoll =>
    have hcalled : Noted ({ s with type := .psp }, l) := ⟨h.marked, h.strays⟩
    rw [stores_called htaken hcall]
    exact (hcalled.mark tos).of_poll hpoll
  | @told cm htaken hcm hwell hpoll =>
    rw [stores_told htaken hcm hwell]
    exact (h.mark cm.nodeid).of_poll hpoll

end Noted

/-- Every write has hit the table, the first loop of `isSP` looks at every entry that was
written, the second stops there or before, and the own entry is found unless a smaller one
is set. -/
structure InBounds (tos : Word16) (n : State × List Word16) : Prop where
  bounds : ∀ i ∈ n.2, i.val < pspTableSize
  examined : ∀ i ∈ n.2, ∃ k ∈ counter 0, k.val = i.val
  scanned : ∀ i ∈ n.2, ∃ k, scan n.1.isPSP 0 = some k ∧ k.val ≤ i.val
  compared : isSP tos n.1 = true ↔ ∃ k, scan n.1.isPSP 0 = some k ∧ tos.val = k.val
  found : isSP tos n.1 = true ↔ tos ∈ n.2 ∧ ∀ i ∈ n.2, tos ≤ i

theorem Noted.inBounds {n : State × List Word16} (h : Noted n)
    (hbounds : ∀ i ∈ n.2, i.val < pspTableSize) (tos : Word16) : InBounds tos n where
  bounds := hbounds
  examined := fun i hi =>
    ⟨⟨i.val, (hbounds i hi).trans (by decide)⟩, mem_counter.mpr (hbounds i hi), rfl⟩
  scanned := fun i hi => scan_of_marked ((h.marked i).mpr ⟨hi, hbounds i hi⟩)
  compared := isSP_scan tos n.1
  found := by
    have hmarked : ∀ i, n.1.Marked i ↔ i ∈ n.2 := fun i =>
      (h.marked i).trans (and_iff_left_of_imp (hbounds i))
    simp only [isSP_iff, hmarked]

/-- The tables after a step of a node. -/
theorem Noted.nodeStep {s t : State} {l : List Word16} (h : Noted (s, l)) {tos : Word16}
    {e : NodeEvent} {out : List Output} (hstep : nodeStep tos s e = some (t, out)) :
    Noted (t, l ++ storesAt tos e s) := by
  have hquiet : ∀ {u : State}, u.isPSP = s.isPSP → u.strays = s.strays → Noted (u, l ++ []) := by
    intro u hisPSP hstrays
    rw [List.append_nil]
    exact h.congr hisPSP hstrays
  cases nodeStep_dispatch hstep with
  | booted =>
    obtain ⟨type, radio, heq⟩ := booted_eq tos s
    rw [heq]
    exact hquiet rfl rfl
  | @startDone err =>
    obtain ⟨radio, timer0, heq⟩ := startDone_eq err s
    rw [heq]
    exact hquiet rfl rfl
  | @timer0Fired sent =>
    obtain ⟨packet, busy, curId, cnt, timer0, pending, heq⟩ :=
      timer0Fired_eq tos { s with timer0 := none } sent
    rw [heq]
    exact hquiet rfl rfl
  | @timer1Fired sent =>
    obtain ⟨packet, pending, heq⟩ := timer1Fired_eq tos { s with timer1 := none } sent
    rw [heq]
    exact hquiet rfl rfl
  | sendDone => exact hquiet rfl rfl
  | sourceData => exact h.hear tos _ _
  | heard => exact h.hear tos _ _
  | transmit => exact hquiet rfl rfl

/-- What a node passes on as a name it has written to its table. -/
theorem hear_control {tos : Word16} {s : State} {ans : Answers} {f : Frame} {a : Attempt}
    (ha : a ∈ hearAttempts tos ans f s) {cm : ControlMsg} (hmsg : a.msg = .control cm) :
    cm.nodeid ∈ stores tos f s := by
  obtain ⟨source, destination, len, payload⟩ := f
  obtain ⟨msg, addr, free, sent⟩ := a
  obtain rfl : msg = .control cm := hmsg
  unfold hearAttempts at ha
  split at ha
  · next htaken =>
    have htakes : s.Takes tos ⟨source, destination, len, payload⟩ := htaken
    rw [stores, if_pos htakes]
    cases payload with
    | beacon bm =>
      obtain ⟨hlen, ha⟩ := List.mem_ite_nil_right.mp ha
      dsimp only at ha ⊢
      split at ha
      · next hbroadcast =>
        rw [if_pos ⟨hlen, hbroadcast⟩]
        rcases List.mem_append.mp ha with hannounced | hforwarded
        · cases List.mem_singleton.mp hannounced
          exact List.mem_singleton_self tos
        · cases List.mem_singleton.mp hforwarded
      · cases List.mem_singleton.mp ha
    | control cm' =>
      obtain ⟨⟨hlen, -⟩, ha⟩ := List.mem_ite_nil_right.mp ha
      dsimp only at ha ⊢
      rw [if_pos hlen]
      cases List.mem_singleton.mp ha
      exact List.mem_singleton_self _
    | route rm => cases ha
  · cases ha

theorem attempts_control {tos : Word16} {s : State} {e : NodeEvent} {a : Attempt}
    (ha : a ∈ attempts tos s e) {cm : ControlMsg} (hmsg : a.msg = .control cm) :
    cm.nodeid ∈ storesAt tos e s := by
  have hroute : ∀ {rm : RouteMsg} {addr : Word16} {free : Bool} {sent : ErrorT},
      a = ⟨.route rm, addr, free, sent⟩ → cm.nodeid ∈ storesAt tos e s := by
    rintro rm addr free sent rfl
    cases hmsg
  cases e with
  | own e =>
    cases e with
    | timer0Fired sent =>
      obtain ⟨-, hsingle⟩ := List.mem_ite_nil_right.mp ha
      exact hroute (List.mem_singleton.mp hsingle)
    | timer1Fired sent => exact hroute (List.mem_singleton.mp ha)
    | sourceData source destination len bm ans => exact hear_control ha hmsg
    | booted | startDone | sendDone => cases ha
  | heard ans f => exact hear_control ha hmsg
  | transmit => cases ha

/-- The number in the first two bytes of a message, which a control frame would name. -/
def Msg.head : Msg → Word16
  | .beacon bm => bm.nodeid
  | .control cm => cm.nodeid
  | .route rm => rm.id

theorem netWord_bytes (m : Msg) (rest : List Word8) : netWord (m.bytes ++ rest) = m.head := by
  cases m <;> simp only [Msg.bytes, Msg.head, List.append_assoc, netWord_netBytes]

/-- The packet is out as a control frame. -/
def Naming (b : Buffer) : Prop :=
  b.pending ≠ [] ∧ b.packet.type = .control ∧ b.packet.length = sizeofControlMsg

instance (b : Buffer) : Decidable (Naming b) := inferInstanceAs (Decidable (_ ∧ _ ∧ _))

/-- No other message is written over a control frame that is out, unless it begins with a
number that has an entry in the table. -/
def NamesKept : List Attempt → Buffer → Prop
  | [], _ => True
  | a :: as, b =>
    (Naming b → a.free = false → a.msg.am ≠ .control → a.msg.head.val < pspTableSize) ∧
      NamesKept as (a.apply b)

instance decidableNamesKept : (as : List Attempt) → (b : Buffer) → Decidable (NamesKept as b)
  | [], _ => .isTrue trivial
  | a :: as, b =>
    have := decidableNamesKept as (a.apply b)
    inferInstanceAs (Decidable ((_ → _ → _ → _) ∧ _))

/-- A control frame that is out names an entry of the table. -/
structure Addressed (b : Buffer) : Prop where
  long : 2 ≤ b.packet.data.length
  names : Naming b → (netWord b.packet.data).val < pspTableSize

theorem Attempt.apply_data (a : Attempt) (b : Buffer) :
    (a.apply b).packet.data = a.msg.bytes ++ b.packet.data.drop a.msg.size.val := by
  unfold apply
  dsimp only
  split <;> rfl

/-- Whatever is written, the packet names what was written last. -/
theorem addressed_apply {a : Attempt} {b : Buffer}
    (hkept : Naming b → a.free = false → a.msg.am ≠ .control → a.msg.head.val < pspTableSize)
    (hname : a.msg.am = .control → a.msg.head.val < pspTableSize) : Addressed (a.apply b) := by
  constructor
  · rw [a.apply_data, List.length_append, a.msg.length_bytes]
    cases a.msg <;> simp [Msg.size, sizeofBeaconMsg, sizeofControlMsg, sizeofRouteMsg] <;> omega
  · intro hnaming
    rw [a.apply_data, netWord_bytes]
    by_cases hcontrol : a.msg.am = .control
    · exact hname hcontrol
    · cases hfree : a.free with
      | true =>
        have htype : (a.apply b).packet.type = a.msg.am := by
          unfold Attempt.apply
          rw [if_pos hfree]
        exact absurd (htype.symm.trans hnaming.2.1) hcontrol
      | false =>
        refine hkept ?_ hfree hcontrol
        simpa only [Naming, Attempt.apply, hfree, Bool.false_eq_true, ↓reduceIte] using hnaming

theorem addressed_applyAll (as : List Attempt) {b : Buffer} (h : Addressed b)
    (hkept : NamesKept as b)
    (hnames : ∀ a ∈ as, a.msg.am = .control → a.msg.head.val < pspTableSize) :
    Addressed (applyAll as b) := by
  induction as generalizing b with
  | nil => exact h
  | cons a as ih =>
    obtain ⟨hname, hnames⟩ := List.forall_mem_cons.mp hnames
    exact ih (addressed_apply hkept.1 hname) hkept.2 hnames

/-- No well-formed data frame to everybody comes to a node without an entry in the table. -/
def Enrols (tos : Word16) (s : State) (e : NodeEvent) : Prop :=
  ∀ f ∈ e.frame?, s.Takes tos f → f.isCall = true → tos.val < pspTableSize

def KeepsNames (tos : Word16) (s : State) (e : NodeEvent) : Prop :=
  NamesKept (attempts tos s e) s.buffer

instance (tos : Word16) (s : State) (e : NodeEvent) : Decidable (Enrols tos s e) :=
  inferInstanceAs (Decidable (∀ f ∈ e.frame?, _ → _ → _))

instance (tos : Word16) (s : State) (e : NodeEvent) : Decidable (KeepsNames tos s e) :=
  decidableNamesKept (attempts tos s e) s.buffer

def storesOwn (tos : Word16) (e : AirEvent) (s : State) : List Word16 :=
  match e with
  | .own e => storesAt tos (.own e) s
  | .transmit => []

/-- The nodes of the routing program around their radios, each with the indices it has
written to. -/
def tabled {V : Type} (id : V → Word16) :
    Network V (fun _ => State × List Word16) (fun _ => AirEvent) (fun _ => AirAnswers) AirFrame :=
  (air id).noting (fun v e s => storesOwn (id v) e s)
    fun v r f s => stores (id v) (f.read r.stale) s

section Run
variable {V : Type} {id : V → Word16}

/-- The nodes of the network with the indices they have written to. -/
abbrev Tables (V : Type) := Network.Config (fun _ : V => State × List Word16) AirFrame

/-- What the tables hold, with every write in bounds and every name on the air fit for one. -/
structure Fitting (c : Tables V) : Prop where
  noted : ∀ v, Noted (c.node v)
  bounds : ∀ v, ∀ i ∈ (c.node v).2, i.val < pspTableSize
  packets : ∀ v, Addressed (c.node v).1.buffer
  frames : ∀ u f, (u, f) ∈ c.log → f.type = .control → f.length = sizeofControlMsg →
    ∀ stale, (netWord (f.data ++ stale)).val < pspTableSize

theorem addressed_init : Addressed ({} : State).buffer :=
  ⟨by decide, fun hnaming => absurd rfl hnaming.1⟩

theorem fitting_init : Fitting ⟨fun _ : V => ({}, []), [], []⟩ where
  noted := fun _ => noted_init
  bounds := by simp
  packets := fun _ => addressed_init
  frames := by simp

/-- A frame read off the packet names what the packet names. -/
theorem netWord_take {data : List Word8} (hlong : 2 ≤ data.length) {n : ℕ} (hn : 2 ≤ n)
    (stale : List Word8) : netWord (data.take n ++ stale) = netWord data := by
  match data, n, hlong, hn with
  | _ :: _ :: _, _ + 2, _, _ => rfl

theorem Addressed.onAir {s : State} (h : Addressed s.buffer) (hout : s.pending ≠ [])
    (htype : s.packet.type = .control) (hlength : s.packet.length = sizeofControlMsg)
    (stale : List Word8) (tos : Word16) :
    (netWord ((s.packet.onAir tos).data ++ stale)).val < pspTableSize := by
  have hdata : (s.packet.onAir tos).data = s.packet.data.take 4 := by
    change s.packet.data.take s.packet.length.val = _
    rw [hlength]
    rfl
  have hlong : 2 ≤ s.packet.data.length := h.long
  rw [hdata, netWord_take hlong (by decide)]
  exact h.names ⟨hout, htype, hlength⟩

/-- Every step of the network is one node's, which notes what it writes; a frame that appears
on the air is what its packet holds. -/
theorem tabled_step [DecidableEq V] {c c' : Tables V} {e : AirHappening V}
    (h : (tabled id).system.step c e = some c') :
    ∃ v ne t out, happens c.forget e = some (v, ne) ∧
      nodeStep (id v) (c.node v).1 ne = some (t, out) ∧
      c'.node = Function.update c.node v (t, (c.node v).2 ++ storesAt (id v) ne (c.node v).1) ∧
      ∀ u f, (u, f) ∈ c'.log → (u, f) ∈ c.log ∨
        u = v ∧ (c.node v).1.pending ≠ [] ∧ f = (c.node v).1.packet.onAir (id v) := by
  obtain ⟨v, a, n, fs, rfl, hhandle, rfl⟩ | ⟨i, v, r, u, f, rfl, hi, rfl⟩ :=
    (tabled id).system_step h
  · obtain ⟨⟨t, gs⟩, hact, heq⟩ := Option.map_eq_some_iff.mp hhandle
    obtain ⟨rfl, rfl⟩ := Prod.mk.inj heq
    cases a with
    | own e =>
      obtain ⟨⟨t', fs⟩, hrun, hpair⟩ := Option.map_eq_some_iff.mp hact
      obtain ⟨rfl, rfl⟩ := Prod.mk.inj hpair
      refine ⟨v, .own e, t', fs.map .handed, rfl, ?_, rfl, fun u f hf => ?_⟩
      · exact Option.map_eq_some_iff.mpr ⟨(t', fs), hrun, rfl⟩
      · change (u, f) ∈ c.log ++ [] at hf
        rw [List.append_nil] at hf
        exact .inl hf
    | transmit =>
      obtain ⟨hout, hpair⟩ := Option.ite_none_right_eq_some.mp hact
      obtain ⟨rfl, rfl⟩ := Prod.mk.inj (Option.some.inj hpair)
      refine ⟨v, .transmit, _, _, rfl, if_pos hout, rfl, fun u f hf => ?_⟩
      refine (Network.Config.mem_put_log.mp hf).imp_right fun hnew => ?_
      exact ⟨hnew.1, hout, List.mem_singleton.mp hnew.2⟩
  · have hhappens : happens c.forget (.deliver i v r) =
        some (v, .heard r.answers (f.read r.stale)) := by
      simp [happens, Network.Config.forget, hi]
    refine ⟨v, _, _, _, hhappens, rfl, rfl, fun w g hg => ?_⟩
    change (w, g) ∈ c.log ++ [] at hg
    rw [List.append_nil] at hg
    exact .inl hg

section Step
variable {c : Tables V} {v : V} {e : NodeEvent}

/-- A control frame that comes in was read off the air. -/
theorem control_heard {a : AirHappening V} (hhappens : happens c.forget a = some (v, e))
    {f : Frame} (hframe : e.frame? = some f) {cm : ControlMsg} (hcm : f.payload = .control cm) :
    ∃ u g stale, (u, g) ∈ c.log ∧ g.type = .control ∧ f.length = g.length ∧
      cm.nodeid = netWord (g.data ++ stale) := by
  cases a with
  | act w a =>
    cases a with
    | own a =>
      obtain ⟨-, rfl⟩ := Prod.mk.inj (Option.some.inj hhappens)
      cases a with
      | sourceData =>
        cases hframe
        cases hcm
      | _ => cases hframe
    | transmit =>
      obtain ⟨-, rfl⟩ := Prod.mk.inj (Option.some.inj hhappens)
      cases hframe
  | deliver i w r =>
    obtain ⟨⟨u, g⟩, hlog, hpair⟩ := Option.map_eq_some_iff.mp hhappens
    obtain ⟨-, rfl⟩ := Prod.mk.inj hpair
    obtain rfl : g.read r.stale = f := Option.some.inj hframe
    obtain ⟨source, destination, length, type, data⟩ := g
    cases type with
    | control =>
      cases hcm
      exact ⟨u, _, r.stale, List.mem_of_getElem? hlog, rfl, rfl, rfl⟩
    | beacon | route => cases hcm

/-- The indices that a node writes to have entries in the table. -/
theorem Fitting.stores (h : Fitting c) {a : AirHappening V}
    (hhappens : happens c.forget a = some (v, e)) (henrols : Enrols (id v) (c.node v).1 e) :
    ∀ i ∈ storesAt (id v) e (c.node v).1, i.val < pspTableSize := by
  intro i hi
  unfold storesAt at hi
  split at hi
  · next f hframe =>
    obtain ⟨htaken, ⟨hcall, rfl⟩ | ⟨cm, hcm, hlength, rfl⟩⟩ := mem_stores hi
    · exact henrols f hframe htaken hcall
    · obtain ⟨u, g, stale, hlog, htype, hlen, hname⟩ := control_heard hhappens hframe hcm
      rw [hname]
      exact h.frames u g hlog htype (hlen.symm.trans hlength) stale
  · cases hi

/-- Where every write is in bounds, no node without an entry was called. -/
theorem enrols_of_bounds {tos : Word16} {s : State}
    (hbounds : ∀ i ∈ storesAt tos e s, i.val < pspTableSize) : Enrols tos s e := by
  intro f hframe htaken hcall
  have hstores : storesAt tos e s = [tos] := by
    rw [storesAt, Option.mem_def.mp hframe]
    exact stores_called htaken hcall
  exact hbounds tos (hstores ▸ List.mem_singleton_self tos)

/-- A step of a node keeps its packet fit, as far as it writes fit names. -/
theorem Addressed.nodeStep {tos : Word16} {s t : State} {out : List Output}
    (h : Addressed s.buffer) (hkeeps : KeepsNames tos s e)
    (hnames : ∀ i ∈ storesAt tos e s, i.val < pspTableSize)
    (hstep : nodeStep tos s e = some (t, out)) : Addressed t.buffer := by
  have hattempts : ∀ {marks : Bool} {fs : List Frame},
      Handles tos marks s (attempts tos s e) (t, fs) → Addressed t.buffer := by
    intro marks fs hhandles
    have hbuffer : t.buffer = applyAll (attempts tos s e) s.buffer := hhandles.buffer
    rw [hbuffer]
    refine addressed_applyAll _ h hkeeps fun a ha hcontrol => ?_
    cases hmsg : a.msg with
    | control cm => exact hnames _ (attempts_control ha hmsg)
    | beacon | route =>
      rw [hmsg] at hcontrol
      cases hcontrol
  have heffect := nodeStep_effect hstep
  cases heffect with
  | handled he hhandles => exact hattempts hhandles
  | relayed hhandles => exact hattempts hhandles
  | @sendDone am err ham =>
    refine ⟨h.long, fun hnaming => h.names ⟨fun hnone => hnaming.1 ?_, hnaming.2⟩⟩
    have hpending : s.pending = [] := hnone
    rw [hpending] at ham
    cases ham
  | transmit => exact h

end Step

variable [DecidableEq V]

theorem Fitting.step {c c' : Tables V} {e : AirHappening V} (h : Fitting c)
    (henrols : AtNode id Enrols c.forget e) (hkeeps : AtNode id KeepsNames c.forget e)
    (hstep : (tabled id).system.step c e = some c') : Fitting c' := by
  obtain ⟨v, ne, t, out, hhappens, hnode, hmoves, hlog⟩ := tabled_step hstep
  have hstores := h.stores hhappens (henrols _ hhappens)
  constructor
  · rw [hmoves]
    exact (Function.forall_update_iff c.node fun _ n => Noted n).mpr
      ⟨(h.noted v).nodeStep hnode, fun w _ => h.noted w⟩
  · rw [hmoves]
    exact (Function.forall_update_iff c.node fun _ n => ∀ i ∈ n.2, i.val < pspTableSize).mpr
      ⟨List.forall_mem_append.mpr ⟨h.bounds v, hstores⟩, fun w _ => h.bounds w⟩
  · rw [hmoves]
    exact (Function.forall_update_iff c.node fun _ n => Addressed n.1.buffer).mpr
      ⟨(h.packets v).nodeStep (hkeeps _ hhappens) hstores hnode, fun w _ => h.packets w⟩
  · intro u f hf htype hlength stale
    rcases hlog u f hf with hold | ⟨rfl, hout, rfl⟩
    · exact h.frames u f hold htype hlength stale
    · exact (h.packets u).onAir hout htype hlength stale (id u)

/-- In every run in which no node without an entry is called, and no number without one is
written over a control frame that is out, the accesses to the tables are in bounds and miss no
entry. The first is needed in any case. -/
theorem table_in_bounds (id : V → Word16) (es : List (AirHappening V)) (c : Tables V)
    (hrun : (tabled id).system.run es = some c) :
    ((tabled id).system.AllowedFrom
          (fun c e => AtNode id Enrols c.forget e ∧ AtNode id KeepsNames c.forget e)
          (tabled id).system.init es →
      (tabled id).system.Always (fun c => ∀ v, InBounds (id v) (c.node v))
        (tabled id).system.init es) ∧
    ((tabled id).system.Always (fun c => ∀ v, InBounds (id v) (c.node v))
        (tabled id).system.init es →
      (tabled id).system.AllowedFrom (fun c e => AtNode id Enrols c.forget e)
        (tabled id).system.init es) := by
  constructor
  · intro hallowed
    have hkeep : ∀ c e c', Fitting c →
        AtNode id Enrols c.forget e ∧ AtNode id KeepsNames c.forget e →
        (tabled id).system.step c e = some c' → Fitting c' :=
      fun c e c' h hstepAllowed hstep => h.step hstepAllowed.1 hstepAllowed.2 hstep
    refine hallowed.always hkeep (fun c h v => ?_) fitting_init
    exact (h.noted v).inBounds (h.bounds v) (id v)
  · intro hsafe
    refine hsafe.allowedFrom (fun _ _ _ (_ : True) _ _ => trivial)
      (fun c e c' _ hstep hsafe' => ?_) trivial hrun
    obtain ⟨v, ne, t, out, hhappens, -, hmoves, -⟩ := tabled_step hstep
    have hbounds := (hsafe' v).bounds
    rw [hmoves, Function.update_self] at hbounds
    intro p hp
    obtain rfl := Option.some.inj (hhappens.symm.trans hp)
    exact enrols_of_bounds (List.forall_mem_append.mp hbounds).2

end Run

/-- Two nodes with an entry each. -/
def nearCandidate : Bool → Word16
  | false => 2
  | true => 3

/-- Both are called and tell each other; what they tell is written over before the radio
reads it. -/
def tellingPair : List (AirHappening Bool) :=
  [.act false (.own .booted), .act false (.own (.startDone .success)), .act true (.own .booted),
    .act true (.own (.startDone .success)),
    .act false (.own (.sourceData 100 broadcastAddr sizeofBeaconMsg sample granting)),
    .act true (.own (.sourceData 100 broadcastAddr sizeofBeaconMsg sample granting)),
    .act false .transmit, .act true .transmit, .deliver 0 true receiving,
    .deliver 1 false receiving]

theorem table_in_bounds_pair :
    ∃ c, (tabled nearCandidate).system.run tellingPair = some c ∧ (c.node false).2 = [2, 100] ∧
      (tabled nearCandidate).system.Always
        (fun c => ∀ v, InBounds (nearCandidate v) (c.node v))
        (tabled nearCandidate).system.init tellingPair := by
  refine ⟨_, rfl, rfl, (table_in_bounds nearCandidate tellingPair _ rfl).1 ?_⟩
  decide +kernel

/-- A node with an entry in the table and one without. -/
def farCandidate : Bool → Word16
  | false => 2
  | true => 300

/-- The node 300 is called and writes behind the table. -/
def calledFar : List (AirHappening Bool) :=
  [.act true (.own .booted), .act true (.own (.startDone .success)),
    .act true (.own (.sourceData 100 broadcastAddr sizeofBeaconMsg sample granting))]

/-- The node 2 is called by a source without an entry, whose number it writes over its own
before the radio reads it, and makes the node 3 write behind the table. -/
def calledByFar : List (AirHappening Bool) :=
  [.act false (.own .booted), .act false (.own (.startDone .success)), .act true (.own .booted),
    .act true (.own (.startDone .success)),
    .act false (.own (.sourceData 300 broadcastAddr sizeofBeaconMsg { sample with nodeid := 300 }
      granting)),
    .act false .transmit, .deliver 0 true receiving]

theorem table_out_of_bounds :
    (∃ c, (tabled farCandidate).system.run calledFar = some c ∧ (c.node true).2 = [300] ∧
      isSP 300 (c.node true).1 = false ∧ ¬ InBounds 300 (c.node true)) ∧
    ∃ c, (tabled nearCandidate).system.run calledByFar = some c ∧ (c.node true).2 = [300] ∧
      ¬ InBounds 3 (c.node true) := by
  have hout : ∀ {tos : Word16} {n : State × List Word16}, n.2 = [300] → ¬ InBounds tos n := by
    intro tos n hn h
    exact absurd (h.bounds 300 (by simp [hn])) (by decide)
  exact ⟨⟨_, rfl, rfl, by decide, hout rfl⟩, _, rfl, rfl, hout rfl⟩

end WsnContest.Routing
