import WsnContest.Lib.Bitmap
import WsnContest.Digit.Relay

/-! `dec2bin.c`, which packs the nodes that show a digit into the words of `PATTERN`, and
the two ways of asking whether a node shows it: the bit of the node, and a search of the
list it was packed from. -/
namespace WsnContest.Digit.Dec2bin
open Tinyos Lib

/-- `LEN`. -/
abbrev len : ℕ := 64

/-- `digit_pattern_t`. -/
abbrev Frag := Vector Word16 4

/-- `out[i] |= bit_mask`. -/
def orInto (out : Frag) (i : Fin 4) (bitMask : ℕ) : Frag :=
  out.set i (Fin.ofNat _ (out[i].val ||| bitMask))

/-- The body of the loop of `pattern2hex`. -/
def encode (out : Frag) (nodeId : ℤ) : Frag :=
  if 0 < nodeId ∧ nodeId ≤ 15 then orInto out 3 (1 <<< nodeId.toNat)
  else if 16 ≤ nodeId ∧ nodeId ≤ 31 then orInto out 2 (1 <<< (nodeId - 16).toNat)
  else if 32 ≤ nodeId ∧ nodeId ≤ 47 then orInto out 1 (1 <<< (nodeId - 32).toNat)
  else if 48 ≤ nodeId ∧ nodeId ≤ 63 then orInto out 0 (1 <<< (nodeId - 48).toNat)
  else out

/-- `pattern2hex`, with the words it prints. -/
def pattern2hex (pattern : Vector ℤ len) : Frag :=
  pattern.foldl encode (Vector.replicate 4 0)

/-- The test of `isOn` on the words of one digit. -/
def on (frag : Frag) (id : ℕ) : ℕ := frag[3 - id / 16 % 4].val &&& 1 <<< (id % 16)

theorem on_ne_zero (frag : Frag) (id : ℕ) :
    on frag id ≠ 0 ↔ Bitmap.has (w := 16) frag id = true :=
  and_mask_ne_zero _ _

/-- The entries that name a node; the others have no bit. -/
def Named (nodeId : ℤ) : Prop := 1 ≤ nodeId ∧ nodeId ≤ 63

instance (nodeId : ℤ) : Decidable (Named nodeId) := inferInstanceAs (Decidable (_ ∧ _))

def node? (nodeId : ℤ) : Option ℕ := if Named nodeId then some nodeId.toNat else none

theorem node?_eq_some {nodeId : ℤ} {k : ℕ} :
    node? nodeId = some k ↔ nodeId = k ∧ 1 ≤ k ∧ k ≤ 63 := by
  rw [node?, Option.ite_none_right_eq_some, Option.some.injEq, Named]
  omega

theorem node?_eq_none {nodeId : ℤ} : node? nodeId = none ↔ ¬ Named nodeId := by
  simp [node?]

theorem orInto_eq_put (out : Frag) {i : Fin 4} {j k : ℕ} (hslot : 3 - k / 16 % 4 = i.val)
    (hbit : k % 16 = j) : orInto out i (1 <<< j) = Bitmap.put (w := 16) out k := by
  obtain rfl : Bitmap.slot 16 4 k = i := Fin.ext hslot
  rw [← hbit]
  rfl

/-- The four ranges of the encoder are the four words of the decoder. -/
theorem encode_nat (out : Frag) {k : ℕ} (hk : 1 ≤ k) (hle : k ≤ 63) :
    encode out k = Bitmap.put (w := 16) out k := by
  unfold encode
  split_ifs with h3 h2 h1 h0
  · exact orInto_eq_put out (show _ = 3 by omega) (by omega)
  · exact orInto_eq_put out (show _ = 2 by omega) (by omega)
  · exact orInto_eq_put out (show _ = 1 by omega) (by omega)
  · exact orInto_eq_put out (show _ = 0 by omega) (by omega)
  · omega

theorem encode_of_not_named (out : Frag) {nodeId : ℤ} (h : ¬ Named nodeId) :
    encode out nodeId = out := by
  unfold Named at h
  unfold encode
  split_ifs <;> first | rfl | omega

/-- What one entry does to the words. -/
theorem encode_eq (out : Frag) (nodeId : ℤ) :
    encode out nodeId =
      match node? nodeId with
      | some k => Bitmap.put (w := 16) out k
      | none => out := by
  cases h : node? nodeId with
  | none => exact encode_of_not_named out (node?_eq_none.mp h)
  | some k =>
    obtain ⟨rfl, hk, hle⟩ := node?_eq_some.mp h
    exact encode_nat out hk hle

/-- The words are the bitmap of the nodes that the list names. -/
theorem pattern2hex_eq (pattern : Vector ℤ len) :
    pattern2hex pattern =
      (pattern.toList.filterMap node?).foldl (Bitmap.put (w := 16)) Bitmap.empty := by
  rw [pattern2hex, ← Vector.foldl_toList, List.foldl_filterMap]
  congr 1
  funext out nodeId
  rw [encode_eq]
  cases node? nodeId <;> rfl

theorem has_pattern2hex (pattern : Vector ℤ len) (id : ℕ) :
    Bitmap.has (w := 16) (pattern2hex pattern) id = true ↔
      id % 64 ≠ 0 ∧ ((id % 64 : ℕ) : ℤ) ∈ pattern := by
  rw [pattern2hex_eq, Bitmap.has_foldl_put (by decide), Bitmap.has_empty]
  simp only [List.mem_filterMap, node?_eq_some, Vector.mem_toList_iff, Bool.false_eq_true, or_false]
  constructor
  · rintro ⟨k, ⟨nodeId, hmem, rfl, hk, hle⟩, hmod⟩
    have hsame : id % 64 = k := hmod.trans (Nat.mod_eq_of_lt (by omega))
    rw [hsame]
    exact ⟨by omega, hmem⟩
  · rintro ⟨hne, hmem⟩
    exact ⟨id % 64, ⟨_, hmem, rfl, by omega, by omega⟩, (Nat.mod_mod id 64).symm⟩

/-- Entries that a filter drops may be exchanged. -/
theorem filterMap_set {α β : Type} {f : α → Option β} {l : List α} {i : ℕ} (h : i < l.length)
    (hi : f l[i] = none) {v : α} (hv : f v = none) :
    (l.set i v).filterMap f = l.filterMap f := by
  rw [List.set_eq_take_append_cons_drop, if_pos h]
  conv_rhs => rw [← List.take_append_drop i l, List.drop_eq_getElem_cons h]
  rw [List.filterMap_append, List.filterMap_append, List.filterMap_cons_none hv,
    List.filterMap_cons_none hi]

/-- An entry that names no node may be any other that names none. -/
theorem pattern2hex_set (pattern : Vector ℤ len) (i : Fin len) {v : ℤ}
    (hi : ¬ Named pattern[i]) (hv : ¬ Named v) :
    pattern2hex (pattern.set i v) = pattern2hex pattern := by
  have hlt : i.val < pattern.toList.length := by simp
  have hget : node? pattern.toList[i.val] = none := by
    rw [Vector.getElem_toList]
    exact node?_eq_none.mpr hi
  rw [pattern2hex_eq, pattern2hex_eq, Vector.toList_set,
    filterMap_set hlt hget (node?_eq_none.mpr hv)]

/-- The encoding keeps exactly the nodes that the list names, and the test finds them. -/
theorem pattern2hex_isOn (pattern : Vector ℤ len) :
    (∀ id : ℕ, 1 ≤ id → id ≤ 63 →
      ((pattern2hex pattern)[3 - id / 16 % 4].val &&& 1 <<< (id % 16) ≠ 0 ↔
        (id : ℤ) ∈ pattern)) ∧
      (pattern2hex pattern)[3].val.testBit 0 = false ∧
      ∀ (i : Fin len) (v : ℤ), ¬ Named pattern[i] → ¬ Named v →
        pattern2hex (pattern.set i v) = pattern2hex pattern := by
  refine ⟨fun id hid hle => ?_, ?_, fun i v => pattern2hex_set pattern i⟩
  · have hmod : id % 64 = id := Nat.mod_eq_of_lt (by omega)
    have hhas := (on_ne_zero (pattern2hex pattern) id).trans (has_pattern2hex pattern id)
    rw [hmod] at hhas
    exact hhas.trans (and_iff_right (by omega))
  · have hzero := mt (has_pattern2hex pattern 0).mp (fun h => h.1 rfl)
    exact Bool.eq_false_iff.mpr hzero

/-- The initialisers of `pattern`: for every digit the nodes that show it. -/
def digits : Vector (List ℤ) 10 :=
  #v[[11, 12, 13, 14, 15, 16, 17, 18, 21, 28, 31, 32, 33, 34, 35, 36, 37, 38],
    [21, 22, 23, 24, 25, 26, 27, 28],
    [11, 12, 13, 14, 15, 18, 21, 25, 28, 31, 35, 36, 37, 38],
    [11, 15, 18, 21, 25, 28, 31, 32, 33, 34, 35, 36, 37, 38],
    [15, 16, 17, 18, 25, 31, 32, 33, 34, 35, 36, 37, 38],
    [11, 15, 16, 17, 18, 21, 25, 28, 31, 32, 33, 34, 35, 38],
    [11, 12, 13, 14, 15, 16, 17, 18, 21, 25, 28, 31, 32, 33, 34, 35, 38],
    [18, 28, 31, 32, 33, 34, 35, 36, 37, 38],
    [11, 12, 13, 14, 15, 16, 17, 18, 21, 25, 28, 31, 32, 33, 34, 35, 36, 37, 38],
    [11, 15, 16, 17, 18, 21, 25, 28, 31, 32, 33, 34, 35, 36, 37, 38]]

/-- A row of the array; C fills with zeros what the initialiser leaves out. -/
def row (ids : List ℤ) : Vector ℤ len := Vector.ofFn fun i => ids.getD i 0

/-- `pattern`. -/
def pattern : Vector (Vector ℤ len) 10 := digits.map row

/-- `isOn`, the expression that `RadioToLedsC` takes `on` from as well; `none` where it
reads past the end of the table. -/
def isOn (number id : ℕ) : Option ℕ :=
  RadioToLeds.pattern[number]?.bind fun frag =>
    frag[3 - id / 16 % 4]?.map fun word => word.val &&& 1 <<< (id % 16)

/-- `isOnTwo`. -/
def isOnTwo (number id : ℕ) : Bool := pattern[number % 10].any fun nodeId => nodeId == id

theorem toList_row {ids : List ℤ} (h : ids.length ≤ len) :
    (row ids).toList = ids ++ List.replicate (len - ids.length) 0 := by
  apply List.ext_getElem
  · simp [h]
  · intro i hi _
    simp only [row, Vector.toList_ofFn, List.getElem_ofFn, List.getElem_append]
    split_ifs with hlt
    · exact List.getD_eq_getElem ids 0 hlt
    · rw [List.getElem_replicate]
      exact List.getD_eq_default ids 0 (not_lt.mp hlt)

theorem mem_row {ids : List ℤ} (h : ids.length < len) {v : ℤ} :
    v ∈ row ids ↔ v ∈ ids ∨ v = 0 := by
  rw [← Vector.mem_toList_iff, toList_row h.le, List.mem_append, List.mem_replicate]
  exact or_congr_right (and_iff_right (by omega))

/-- The padding adds nothing to the words. -/
theorem pattern2hex_row {ids : List ℤ} (h : ids.length ≤ len) :
    pattern2hex (row ids) = (ids.filterMap node?).foldl (Bitmap.put (w := 16)) Bitmap.empty := by
  have hzero : node? 0 = none := rfl
  rw [pattern2hex_eq, toList_row h, List.filterMap_append,
    List.filterMap_replicate_of_none hzero, List.append_nil]

theorem digits_named (d : Fin 10) :
    digits[d].length < len ∧ ∀ v ∈ digits[d], Named v := by
  revert d
  decide

theorem getElem_pattern (d : Fin 10) : pattern[d] = row digits[d] := by simp [pattern]

theorem mem_pattern (d : Fin 10) (v : ℤ) : v ∈ pattern[d] ↔ v ∈ digits[d] ∨ v = 0 := by
  rw [getElem_pattern]
  exact mem_row (digits_named d).1

/-- `PATTERN` is what the encoder prints for the ten lists. -/
theorem pattern2hex_pattern (d : Fin 10) :
    RadioToLeds.pattern[d.val]? = some (pattern2hex pattern[d]).toList := by
  have htable : ∀ d : Fin 10, RadioToLeds.pattern[d.val]? =
      some ((digits[d].filterMap node?).foldl (Bitmap.put (w := 16) (n := 4))
        Bitmap.empty).toList := by
    decide
  rw [htable, getElem_pattern, pattern2hex_row (digits_named d).1.le]

/-- For a digit the decision reads the word that the encoder has packed. -/
theorem isOn_digit (d : Fin 10) (id : ℕ) :
    isOn d id = some (on (pattern2hex pattern[d]) id) := by
  have hslot : 3 - id / 16 % 4 < 4 := by omega
  rw [isOn, pattern2hex_pattern d]
  simp [on, Vector.getElem?_eq_getElem hslot]

theorem isOn_eq_none {number : ℕ} (h : 10 ≤ number) (id : ℕ) : isOn number id = none := by
  rw [isOn, List.getElem?_eq_none h]
  rfl

/-- The bit repeats every sixty-four nodes. -/
theorem on_digit (d : Fin 10) (id : ℕ) :
    on (pattern2hex pattern[d]) id ≠ 0 ↔ ((id % 64 : ℕ) : ℤ) ∈ digits[d] := by
  rw [on_ne_zero, has_pattern2hex, mem_pattern]
  constructor
  · rintro ⟨hne, hmem | hzero⟩
    · exact hmem
    · omega
  · intro hmem
    obtain ⟨hpos, -⟩ := (digits_named d).2 _ hmem
    exact ⟨by omega, .inl hmem⟩

/-- Inside the table the node takes the decision of `isOn`, whatever lies beyond. -/
theorem lit_iff {tosNodeId : Word16} {number : Word8} {bits : ℕ} (beyond : Word16)
    (h : isOn number tosNodeId = some bits) :
    RadioToLeds.lit tosNodeId number beyond = true ↔ bits ≠ 0 := by
  simp only [isOn, Option.bind_eq_some_iff, Option.map_eq_some_iff] at h
  obtain ⟨frag, hfrag, word, hword, rfl⟩ := h
  simp only [RadioToLeds.lit, hfrag, List.getD_eq_getElem?_getD, hword, Option.getD_some]
  exact (and_mask_ne_zero _ _).symm

/-- A node shines for a digit if its number, cut to six bits, is in the list. -/
theorem lit_digit (tosNodeId : Word16) {number : Word8} (h : number.val < 10)
    (beyond : Word16) :
    RadioToLeds.lit tosNodeId number beyond = true ↔
      ((tosNodeId.val % 64 : ℕ) : ℤ) ∈ digits[number.val] :=
  (lit_iff beyond (isOn_digit ⟨number, h⟩ tosNodeId)).trans (on_digit ⟨number, h⟩ tosNodeId)

/-- The search finds the padding as well. -/
theorem isOnTwo_digit (d : Fin 10) (id : ℕ) :
    isOnTwo d id = true ↔ (id : ℤ) ∈ digits[d] ∨ id = 0 := by
  simp only [isOnTwo, Nat.mod_eq_of_lt d.isLt, Vector.any_eq_true', beq_iff_eq]
  rw [exists_eq_right, ← Fin.getElem_fin, mem_pattern]
  exact or_congr_right Int.natCast_eq_zero

/-- The decision reads inside the table, and is the answer of the search. -/
def Agrees (number id : ℕ) : Prop :=
  ∃ bits, isOn number id = some bits ∧ (bits ≠ 0 ↔ isOnTwo number id = true)

theorem not_agrees {number : ℕ} (h : 10 ≤ number) (id : ℕ) : ¬ Agrees number id := by
  rintro ⟨bits, hbits, -⟩
  rw [isOn_eq_none h] at hbits
  exact Option.some_ne_none bits hbits.symm

theorem agrees_digit (d : Fin 10) (id : ℕ) :
    Agrees d id ↔ id ≠ 0 ∧ (64 ≤ id → ((id % 64 : ℕ) : ℤ) ∉ digits[d]) := by
  have hagrees : Agrees d id ↔
      (((id % 64 : ℕ) : ℤ) ∈ digits[d] ↔ (id : ℤ) ∈ digits[d] ∨ id = 0) := by
    simp only [Agrees, isOn_digit, Option.some.injEq, exists_eq_left', on_digit, isOnTwo_digit]
  have hnames := (digits_named d).2
  rw [hagrees]
  generalize digits[d] = ids at hnames ⊢
  rcases Nat.eq_zero_or_pos id with rfl | hpos
  · have hzero : (0 : ℤ) ∉ ids := fun h => absurd (hnames 0 h).1 (by decide)
    simp [hzero]
  · by_cases hlt : id < 64
    · rw [Nat.mod_eq_of_lt hlt]
      simp [hpos.ne', hlt]
    · have hfar : (id : ℤ) ∉ ids := fun h => by
        have hle := (hnames _ h).2
        omega
      simp [hfar, hpos.ne', not_lt.mp hlt]

/-- A digit of the table, a node other than zero, and none of the nodes from sixty-four on
that share the bit of one in the list. -/
theorem isOn_agrees_iff (number : Word8) (id : ℕ) :
    Agrees number id ↔
      number.val < 10 ∧ id ≠ 0 ∧
        (64 ≤ id → ((id % 64 : ℕ) : ℤ) ∉ digits[number.val % 10]) := by
  by_cases h : number.val < 10
  · simp only [Nat.mod_eq_of_lt h, h, true_and]
    exact agrees_digit ⟨number, h⟩ id
  · exact iff_of_false (not_agrees (not_lt.mp h) id) fun hcond => h hcond.1

/-- A frame with the number ten; node zero; and a node that shines for node eleven. -/
theorem isOn_disagrees : ¬ Agrees 10 11 ∧ ¬ Agrees 0 0 ∧ ¬ Agrees 0 75 := by
  refine ⟨not_agrees le_rfl 11, ?_, ?_⟩
  · exact fun h => ((agrees_digit 0 0).mp h).1 rfl
  · exact fun h => ((agrees_digit 0 75).mp h).2 (by decide) (by decide)

end WsnContest.Digit.Dec2bin
