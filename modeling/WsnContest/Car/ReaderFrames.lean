import WsnContest.Car.Isolation

/-! What the parser of received bytes recognises: the first two bytes 255 in a row, and the
six bytes after them. -/
namespace WsnContest.CarP
open Tinyos Lib

/-- An owner of the UART as `recvTask` leaves the parser. -/
structure Listening (s : State) : Prop where
  owner : s.owner = true
  isUartDataOk : s.isUartDataOk = false
  rcvSyncDataSum : s.rcvSyncDataSum = 0
  isBufFull : s.isBufFull = false
  nreading : s.nreading = 0
  recdata : s.recdata.length = 6

/-- Both synchronisation bytes are in. -/
def synchronised (s : State) : State :=
  { s with rcvSyncDataSum := 2, isUartDataOk := true, nreading := 0 }

/-- What six bytes after the synchronisation leave behind. -/
def parsed (b₀ b₁ b₂ b₃ b₄ b₅ : Word8) (s : State) : State :=
  { s with
    rcvSyncDataSum := 2
    isUartDataOk := true
    nreading := 6
    isBufFull := true
    timer1 := false
    recvTaskPosted := true
    recdata := [b₀, b₁, b₂, b₃, b₄, b₅]
    statetag := if b₀ = 0 ∧ b₁ = 0 then .success else .fail
    tagdata := if b₀ = 0 ∧ b₁ = 0 then Fin.ofNat _ (b₄.val * 256 + b₅.val) else s.tagdata }

section Parsed
variable {b₀ b₁ b₂ b₃ b₄ b₅ : Word8} {s : State}

theorem parsed_statetag :
    (parsed b₀ b₁ b₂ b₃ b₄ b₅ s).statetag = .success ↔ b₀ = 0 ∧ b₁ = 0 := by
  by_cases hzero : b₀ = 0 ∧ b₁ = 0
  · exact iff_of_true (if_pos hzero) hzero
  · have hfail : (parsed b₀ b₁ b₂ b₃ b₄ b₅ s).statetag = .fail := if_neg hzero
    exact iff_of_false (by simp [hfail]) hzero

theorem parsed_tagdata (hzero : b₀ = 0 ∧ b₁ = 0) :
    (parsed b₀ b₁ b₂ b₃ b₄ b₅ s).tagdata.val = 256 * b₄.val + b₅.val := by
  have htag : (parsed b₀ b₁ b₂ b₃ b₄ b₅ s).tagdata = Fin.ofNat _ (b₄.val * 256 + b₅.val) :=
    if_pos hzero
  have hhigh := b₄.isLt
  have hlow := b₅.isLt
  rw [htag, Fin.val_ofNat]
  omega

end Parsed

/-- Where two equal elements stand in a row, they do so for a first time. -/
theorem exists_first_pair {α : Type} [DecidableEq α] {a : α} {data : List α}
    (h : [a, a] <:+: data) :
    ∃ pre rest, data = pre ++ a :: a :: rest ∧ ¬ [a, a] <:+: pre ++ [a] := by
  induction data with
  | nil => simp at h
  | cons x data ih =>
    by_cases hnow : [a, a] <+: x :: data
    · obtain ⟨rest, hrest⟩ := hnow
      exact ⟨[], rest, hrest.symm, fun hpair => by simpa using hpair.length_le⟩
    · obtain ⟨pre, rest, rfl, hfirst⟩ := ih ((List.infix_cons_iff.mp h).resolve_left hnow)
      refine ⟨x :: pre, rest, rfl, fun hpair => ?_⟩
      rcases List.infix_cons_iff.mp hpair with hbegin | hlater
      · apply hnow
        rw [List.append_cons pre a, ← List.cons_append]
        exact hbegin.trans (List.prefix_append _ _)
      · exact hfirst hlater

section Streams
variable {s : State}

theorem rxDone_waiting (h : Listening s) (b : Rx) :
    rxDone b { s with rcvSyncDataSum := 0 } =
      { s with rcvSyncDataSum := if b.data = 255 then 1 else 0 } := by
  rw [rxDone_sync (s := { s with rcvSyncDataSum := 0 }) h.owner h.isUartDataOk]
  by_cases hb : b.data = 255
  · rw [if_pos hb]
    exact if_pos hb.symm
  · rw [if_neg hb]
    exact if_neg (Ne.symm hb)

theorem rxDone_halfway (h : Listening s) (b : Rx) :
    rxDone b { s with rcvSyncDataSum := 1 } =
      if b.data = 255 then synchronised s else { s with rcvSyncDataSum := 0 } := by
  rw [rxDone_sync (s := { s with rcvSyncDataSum := 1 }) h.owner h.isUartDataOk]
  by_cases hb : b.data = 255
  · rw [if_pos hb]
    exact if_pos hb.symm
  · rw [if_neg hb]
    exact if_neg (Ne.symm hb)

/-- Without two synchronisation bytes in a row only the last byte counts. -/
theorem rxAll_unsynchronised (h : Listening s) (bs : List Rx)
    (hnone : ¬ [255, 255] <:+: bs.map Rx.data) :
    rxAll bs s =
      { s with rcvSyncDataSum := if (bs.map Rx.data).getLast? = some 255 then 1 else 0 } := by
  induction bs using List.reverseRecOn with
  | nil =>
    rw [rxAll_nil, List.map_nil, List.getLast?_nil, if_neg (by simp), ← h.rcvSyncDataSum]
  | append_singleton bs b ih =>
    rw [List.map_append] at hnone
    have hbefore := ih fun hpair => hnone (hpair.trans (List.prefix_append _ _).isInfix)
    have hlater : ((bs ++ [b]).map Rx.data).getLast? = some b.data := by simp
    rw [rxAll_append, hbefore, rxAll_cons, rxAll_nil, hlater]
    by_cases hlast : (bs.map Rx.data).getLast? = some 255
    · -- a second one would complete the pair
      have hb : b.data ≠ 255 := by
        intro hb
        obtain ⟨init, hinit⟩ := List.getLast?_eq_some_iff.mp hlast
        exact hnone ⟨init, [], by simp [hinit, hb]⟩
      rw [if_pos hlast, rxDone_halfway h, if_neg hb, if_neg (by simpa using hb)]
    · rw [if_neg hlast, rxDone_waiting h]
      simp only [Option.some.injEq]

theorem rxAll_synchronised (h : Listening s) {pre : List Rx} {y z : Rx} (hy : y.data = 255)
    (hz : z.data = 255) (hfirst : ¬ [255, 255] <:+: pre.map Rx.data ++ [255]) :
    rxAll (pre ++ [y, z]) s = synchronised s := by
  have hone : rxAll (pre ++ [y]) s = { s with rcvSyncDataSum := 1 } := by
    have hnone : ¬ [255, 255] <:+: (pre ++ [y]).map Rx.data := by simpa [hy] using hfirst
    rw [rxAll_unsynchronised h _ hnone, if_pos (by simp [hy])]
  rw [List.append_cons, rxAll_append, hone, rxAll_cons, rxAll_nil, rxDone_halfway h, if_pos hz]

/-- Fewer than six bytes do not fill the buffer. -/
theorem rxAll_collecting (bs : List Rx) (howner : s.owner = true) (hok : s.isUartDataOk = true)
    (hfull : s.isBufFull = false) (hroom : s.nreading.val + bs.length < 6) :
    (rxAll bs s).recvTaskPosted = s.recvTaskPosted := by
  induction bs generalizing s with
  | nil => rfl
  | cons b bs ih =>
    rw [List.length_cons] at hroom
    have hlt : s.nreading < maxData := Fin.lt_def.mpr (show _ < 6 by omega)
    have hsucc := nreading_succ hlt
    have hstore : store b.data s =
        { s with recdata := s.recdata.set s.nreading b.data, nreading := s.nreading + 1 } :=
      if_pos hlt
    have hmore : s.nreading + 1 ≠ maxData := fun hsix => by
      have hval : (s.nreading + 1 : Word8).val = 6 := congrArg Fin.val hsix
      omega
    rw [rxAll_cons, rxDone_store howner hok hfull, hstore, if_neg hmore]
    exact ih howner hok hfull (show (s.nreading + 1 : Word8).val + bs.length < 6 by omega)

/-- `n` bytes after the synchronisation. -/
def collecting (recdata : List Word8) (n : Word8) (s : State) : State :=
  { synchronised s with recdata := recdata, nreading := n }

theorem rxDone_collecting (h : Listening s) (b : Rx) (recdata : List Word8) {n : Word8}
    (hn : n < maxData) :
    rxDone b (collecting recdata n s) =
      if n + 1 = maxData then bufFull (collecting (recdata.set n b.data) (n + 1) s)
      else collecting (recdata.set n b.data) (n + 1) s := by
  have hstore : store b.data (collecting recdata n s) =
      collecting (recdata.set n b.data) (n + 1) s := if_pos hn
  rw [rxDone_store (s := collecting recdata n s) h.owner rfl h.isBufFull, hstore]
  rfl

theorem rxAll_six (h : Listening s) (x₀ x₁ x₂ x₃ x₄ x₅ : Rx) :
    rxAll [x₀, x₁, x₂, x₃, x₄, x₅] (synchronised s) =
      parsed x₀.data x₁.data x₂.data x₃.data x₄.data x₅.data s := by
  have hsix : ∃ r₀ r₁ r₂ r₃ r₄ r₅, s.recdata = [r₀, r₁, r₂, r₃, r₄, r₅] :=
    match s.recdata, h.recdata with
    | [r₀, r₁, r₂, r₃, r₄, r₅], _ => ⟨r₀, r₁, r₂, r₃, r₄, r₅, rfl⟩
  obtain ⟨r₀, r₁, r₂, r₃, r₄, r₅, hrec⟩ := hsix
  have hstart : synchronised s = collecting [r₀, r₁, r₂, r₃, r₄, r₅] 0 s := by
    rw [← hrec]
    rfl
  have hrun : rxAll [x₀, x₁, x₂, x₃, x₄, x₅] (synchronised s) = bufFull
      (collecting [x₀.data, x₁.data, x₂.data, x₃.data, x₄.data, x₅.data] 6 s) := by
    simp only [rxAll_cons, rxAll_nil]
    rw [hstart, rxDone_collecting h x₀ _ (by decide), if_neg (by decide),
      rxDone_collecting h x₁ _ (by decide), if_neg (by decide),
      rxDone_collecting h x₂ _ (by decide), if_neg (by decide),
      rxDone_collecting h x₃ _ (by decide), if_neg (by decide),
      rxDone_collecting h x₄ _ (by decide), if_neg (by decide),
      rxDone_collecting h x₅ _ (by decide), if_pos (by decide)]
    rfl
  rw [hrun]
  unfold bufFull parsed collecting synchronised
  by_cases hzero : x₀.data = 0 ∧ x₁.data = 0
  · simp [hzero]
  · have hguard : (decide (x₀.data = 0) && decide (x₁.data = 0)) = false := by
      simpa using hzero
    simp [hzero, hguard]

/-- The task stays posted, so a stream that does not post it has no part that does. -/
theorem posted_take {bs : List Rx} (h : (rxAll bs s).recvTaskPosted = s.recvTaskPosted) (n : ℕ) :
    (rxAll (bs.take n) s).recvTaskPosted = s.recvTaskPosted := by
  rw [← List.take_append_drop n bs, rxAll_append, rxAll_posted] at h
  rw [rxAll_posted] at h ⊢
  cases hposted : s.recvTaskPosted with
  | true => rfl
  | false =>
    rw [hposted, Bool.false_or, Bool.or_eq_false_iff] at h
    rw [h.1, Bool.false_or]

/-- Up to five bytes after the first two synchronisation bytes post nothing. -/
theorem posted_short (h : Listening s) {pre rest : List Rx} {y z : Rx} (hy : y.data = 255)
    (hz : z.data = 255) (hfirst : ¬ [255, 255] <:+: pre.map Rx.data ++ [255])
    (hshort : rest.length < 6) :
    (rxAll (pre ++ [y, z] ++ rest) s).recvTaskPosted = s.recvTaskPosted := by
  rw [rxAll_append, rxAll_synchronised h hy hz hfirst]
  have hroom : (synchronised s).nreading.val + rest.length < 6 := by
    rw [synchronised, Fin.val_zero, Nat.zero_add]
    exact hshort
  exact rxAll_collecting (s := synchronised s) rest h.owner rfl h.isBufFull hroom

/-- Six bytes give the result, and whatever follows is not heard. -/
theorem rxAll_frame (h : Listening s) {pre : List Rx} {y z : Rx} (hy : y.data = 255)
    (hz : z.data = 255) (hfirst : ¬ [255, 255] <:+: pre.map Rx.data ++ [255])
    (x₀ x₁ x₂ x₃ x₄ x₅ : Rx) (post : List Rx) :
    rxAll (pre ++ [y, z] ++ [x₀, x₁, x₂, x₃, x₄, x₅] ++ post) s =
      parsed x₀.data x₁.data x₂.data x₃.data x₄.data x₅.data s := by
  have hdeaf : Deaf (parsed x₀.data x₁.data x₂.data x₃.data x₄.data x₅.data s) :=
    ⟨rfl, .inl rfl⟩
  rw [rxAll_append, rxAll_append, rxAll_synchronised h hy hz hfirst, rxAll_six h,
    rxAll_deaf hdeaf]

/-- The bytes behind a stream of data with a frame in it. -/
theorem exists_frame {bs : List Rx} {pre post : List Word8} {b₀ b₁ b₂ b₃ b₄ b₅ : Word8}
    (hdata : bs.map Rx.data = pre ++ [255, 255] ++ [b₀, b₁, b₂, b₃, b₄, b₅] ++ post) :
    ∃ front y z x₀ x₁ x₂ x₃ x₄ x₅ rest,
      bs = front ++ [y, z] ++ [x₀, x₁, x₂, x₃, x₄, x₅] ++ rest ∧ front.map Rx.data = pre ∧
      (y.data = 255 ∧ z.data = 255) ∧ x₀.data = b₀ ∧ x₁.data = b₁ ∧ x₂.data = b₂ ∧
      x₃.data = b₃ ∧ x₄.data = b₄ ∧ x₅.data = b₅ := by
  obtain ⟨front, rest, rfl, hfront, -⟩ := List.map_eq_append_iff.mp hdata
  obtain ⟨front, six, rfl, hfront, hsix⟩ := List.map_eq_append_iff.mp hfront
  obtain ⟨front, sync, rfl, rfl, hsync⟩ := List.map_eq_append_iff.mp hfront
  obtain ⟨y, z, rfl⟩ : ∃ y z, sync = [y, z] :=
    List.length_eq_two.mp (by simpa using congrArg List.length hsync)
  have hlong : six.length = 6 := by simpa using congrArg List.length hsix
  obtain ⟨x₀, x₁, x₂, x₃, x₄, x₅, rfl⟩ : ∃ x₀ x₁ x₂ x₃ x₄ x₅, six = [x₀, x₁, x₂, x₃, x₄, x₅] :=
    match six, hlong with
    | [x₀, x₁, x₂, x₃, x₄, x₅], _ => ⟨x₀, x₁, x₂, x₃, x₄, x₅, rfl⟩
  simp only [List.map_cons, List.map_nil, List.cons.injEq, and_true] at hsync hsix
  exact ⟨front, y, z, x₀, x₁, x₂, x₃, x₄, x₅, rest, rfl, rfl, hsync, hsix⟩

section Frame
variable {pre : List Rx} {y z : Rx} (x₀ x₁ x₂ x₃ x₄ x₅ : Rx) (post : List Rx)

theorem rxAll_take_frame (h : Listening s) (hy : y.data = 255) (hz : z.data = 255)
    (hfirst : ¬ [255, 255] <:+: pre.map Rx.data ++ [255]) {n : ℕ} (hn : pre.length + 8 ≤ n) :
    rxAll ((pre ++ [y, z] ++ [x₀, x₁, x₂, x₃, x₄, x₅] ++ post).take n) s =
      parsed x₀.data x₁.data x₂.data x₃.data x₄.data x₅.data s := by
  have hlength : (pre ++ [y, z] ++ [x₀, x₁, x₂, x₃, x₄, x₅]).length = pre.length + 8 := by simp
  rw [List.take_append, List.take_of_length_le (by rw [hlength]; exact hn)]
  exact rxAll_frame h hy hz hfirst x₀ x₁ x₂ x₃ x₄ x₅ _

/-- Before the sixth byte nothing is posted. -/
theorem posted_take_frame (h : Listening s) (hy : y.data = 255) (hz : z.data = 255)
    (hfirst : ¬ [255, 255] <:+: pre.map Rx.data ++ [255]) {n : ℕ} (hn : n < pre.length + 8) :
    (rxAll ((pre ++ [y, z] ++ [x₀, x₁, x₂, x₃, x₄, x₅] ++ post).take n) s).recvTaskPosted =
      s.recvTaskPosted := by
  have hshort := @posted_short s h pre [x₀, x₁, x₂, x₃, x₄] y z hy hz hfirst (by simp)
  have hsplit : pre ++ [y, z] ++ [x₀, x₁, x₂, x₃, x₄, x₅] ++ post =
      (pre ++ [y, z] ++ [x₀, x₁, x₂, x₃, x₄]) ++ (x₅ :: post) := by simp
  have hfive : n ≤ (pre ++ [y, z] ++ [x₀, x₁, x₂, x₃, x₄]).length := by
    simp only [List.length_append, List.length_cons, List.length_nil]
    omega
  rw [hsplit, List.take_append_of_le_length hfive]
  exact posted_take hshort n

/-- The bytes before the pair only count towards it. -/
theorem rxAll_take_before (h : Listening s) (hfirst : ¬ [255, 255] <:+: pre.map Rx.data ++ [255])
    {n : ℕ} (hn : n ≤ pre.length) :
    ∃ sum, rxAll ((pre ++ [y, z] ++ [x₀, x₁, x₂, x₃, x₄, x₅] ++ post).take n) s =
      { s with rcvSyncDataSum := sum } := by
  rw [List.append_assoc, List.append_assoc, List.take_append_of_le_length hn]
  refine ⟨_, rxAll_unsynchronised h (pre.take n) fun hpair => hfirst ?_⟩
  rw [List.map_take] at hpair
  exact (hpair.trans (List.take_prefix n _).isInfix).trans (List.prefix_append _ _).isInfix

end Frame

/-- Where no six bytes follow the first pair, or there is none, nothing is posted. -/
theorem posted_without_frame (h : Listening s) {bs : List Rx}
    (hshort : ∀ pre rest, bs.map Rx.data = pre ++ [255, 255] ++ rest →
      ¬ [255, 255] <:+: pre ++ [255] → rest.length < 6) (n : ℕ) :
    (rxAll (bs.take n) s).recvTaskPosted = s.recvTaskPosted := by
  by_cases hpair : [255, 255] <:+: bs.map Rx.data
  · obtain ⟨pre, rest, hdata, hfirst⟩ := exists_first_pair hpair
    have hrest := hshort pre rest (by simpa using hdata) hfirst
    obtain ⟨pre, tail, rfl, rfl, htail⟩ := List.map_eq_append_iff.mp hdata
    obtain ⟨y, tail, rfl, hy, htail⟩ := List.map_eq_cons_iff.mp htail
    obtain ⟨z, tail, rfl, hz, rfl⟩ := List.map_eq_cons_iff.mp htail
    rw [List.length_map] at hrest
    have hposted := posted_short h hy hz hfirst hrest
    rw [List.append_assoc] at hposted
    exact posted_take hposted n
  · apply posted_take
    rw [rxAll_unsynchronised h bs hpair]

end Streams

/-- The parser is exact: where `255, 255` first occurs and six bytes follow, `recvTask` is
posted at the sixth, and neither the bytes before nor those after matter; where they do
not, it is not posted at all. -/
theorem reader_frames_exact {s : State} (h : Listening s) (bs : List Rx) :
    (∀ pre b₀ b₁ b₂ b₃ b₄ b₅ post,
      bs.map Rx.data = pre ++ [255, 255] ++ [b₀, b₁, b₂, b₃, b₄, b₅] ++ post →
      ¬ [255, 255] <:+: pre ++ [255] →
      (∀ n, (rxAll (bs.take n) s).recvTaskPosted =
        (s.recvTaskPosted || decide (pre.length + 8 ≤ n))) ∧
      (∀ n ≤ pre.length, ∃ sum, rxAll (bs.take n) s = { s with rcvSyncDataSum := sum }) ∧
      ∀ n, pre.length + 8 ≤ n →
        rxAll (bs.take n) s = parsed b₀ b₁ b₂ b₃ b₄ b₅ s ∧
        ((rxAll (bs.take n) s).statetag = .success ↔ b₀ = 0 ∧ b₁ = 0) ∧
        (b₀ = 0 ∧ b₁ = 0 → (rxAll (bs.take n) s).tagdata.val = 256 * b₄.val + b₅.val) ∧
        (¬ (b₀ = 0 ∧ b₁ = 0) → (rxAll (bs.take n) s).statetag = .fail)) ∧
    ((∀ pre rest, bs.map Rx.data = pre ++ [255, 255] ++ rest →
        ¬ [255, 255] <:+: pre ++ [255] → rest.length < 6) →
      ∀ n, (rxAll (bs.take n) s).recvTaskPosted = s.recvTaskPosted) := by
  refine ⟨fun pre b₀ b₁ b₂ b₃ b₄ b₅ post hdata hfirst => ?_, posted_without_frame h⟩
  obtain ⟨pre, y, z, x₀, x₁, x₂, x₃, x₄, x₅, post, rfl, rfl, ⟨hy, hz⟩, rfl, rfl, rfl, rfl, rfl,
    rfl⟩ := exists_frame hdata
  rw [List.length_map]
  refine ⟨fun n => ?_, fun n hn => ?_, fun n hn => ?_⟩
  · by_cases hn : pre.length + 8 ≤ n
    · rw [rxAll_take_frame _ _ _ _ _ _ _ h hy hz hfirst hn, decide_eq_true hn, Bool.or_true]
      rfl
    · rw [posted_take_frame _ _ _ _ _ _ _ h hy hz hfirst (not_le.mp hn), decide_eq_false hn,
        Bool.or_false]
  · exact rxAll_take_before _ _ _ _ _ _ _ h hfirst hn
  · rw [rxAll_take_frame _ _ _ _ _ _ _ h hy hz hfirst hn]
    exact ⟨rfl, parsed_statetag, parsed_tagdata, fun hzero => if_neg hzero⟩

/-- Garbage with a single 255 in it, the frame of tag data 258, and more. -/
theorem reader_frames_exact_garbage :
    let bs := ([7, 255, 1, 255, 255, 0, 0, 9, 9, 1, 2, 5] : List Word8).map fun b => ⟨b, 0⟩
    (rxAll bs { owner := true }).recvTaskPosted = true ∧
      (rxAll bs { owner := true }).statetag = .success ∧
      (rxAll bs { owner := true }).tagdata.val = 258 := by
  have h : Listening { owner := true } := ⟨rfl, rfl, rfl, rfl, rfl, rfl⟩
  intro bs
  obtain ⟨hposted, -, hresult⟩ := (reader_frames_exact h bs).1 [7, 255, 1] 0 0 9 9 1 2 [5] rfl
    (by decide)
  obtain ⟨-, hstate, hdata, -⟩ := hresult 12 (by decide)
  exact ⟨hposted 12, hstate.mpr ⟨rfl, rfl⟩, hdata ⟨rfl, rfl⟩⟩

end WsnContest.CarP
