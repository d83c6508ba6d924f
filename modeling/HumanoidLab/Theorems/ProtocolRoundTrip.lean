import HumanoidLab.Bridge.ProtocolV4
import HumanoidLab.Lib.Fallible
import Mathlib.Algebra.BigOperators.Ring.Finset

/-! What `decode_protocol_v4` makes of a packed message: the fields that went in, of a shorter body nothing, of a longer one the
    same fields. -/

namespace HumanoidLab.ProtocolV4
open Fallible

/-! ### One field -/

theorem readEntries_words (words : List (BitVec 32)) (rest : List UInt8) :
    readEntries .f32 words.length (words.flatMap (fun w => Bytes.ofWord 4 w.toNat) ++ rest) = words.map .f32 := by
  induction words with
  | nil => rfl
  | cons w words ih =>
    have hlen : (Bytes.ofWord 4 w.toNat).length = Dtype.f32.itemsize := Bytes.ofWord_length 4 _
    have hword : readEntry .f32 (Bytes.ofWord 4 w.toNat) = .f32 w := by
      show Entry.f32 _ = _
      rw [Bytes.toWord_ofWord w.isLt, BitVec.ofNat_toNat, BitVec.setWidth_eq]
    rw [List.flatMap_cons, List.append_assoc]
    show readEntry .f32 (List.take _ _) :: readEntries .f32 words.length (List.drop _ _) = _
    rw [List.take_left' hlen, List.drop_left' hlen, hword, ih]
    rfl

theorem readEntries_index (index : BitVec 64) (rest : List UInt8) :
    readEntries .i64 1 (Bytes.ofWord 8 index.toNat ++ rest) = [.i64 index.toInt] := by
  have hlen : (Bytes.ofWord 8 index.toNat).length = Dtype.i64.itemsize := Bytes.ofWord_length 8 _
  show [readEntry .i64 (List.take _ _)] = _
  rw [List.take_left' hlen]
  show [Entry.i64 _] = _
  rw [Bytes.toWord_ofWord index.isLt, BitVec.ofNat_toNat, BitVec.setWidth_eq]

theorem readEntries_length (dtype : Dtype) (count : Nat) (bytes : List UInt8) : (readEntries dtype count bytes).length = count := by
  induction count generalizing bytes with
  | zero => rfl
  | succ count ih => exact congrArg (· + 1) (ih _)

/-- A field is packed as entries of a type, fewer than an int64 counts. -/
structure Field.Packed (f : Field) (dtype : Dtype) : Prop where
  known : dtypes.lookup (Json.text f.dtype) = some dtype
  count : f.shape.prod < 2 ^ 63
  bytes : f.bytes.length = f.shape.prod * dtype.itemsize

theorem lookup_f32 : dtypes.lookup (Json.text "f32") = some .f32 := by decide

theorem lookup_i64 : dtypes.lookup (Json.text "i64") = some .i64 := by decide

theorem wordsField_packed (name : String) {words : List (BitVec 32)} (h : words.length < 2 ^ 63) :
    (wordsField name words).Packed .f32 := by
  have hprod : (wordsField name words).shape.prod = words.length := by simp [wordsField]
  refine ⟨lookup_f32, hprod.trans_lt h, ?_⟩
  rw [hprod]
  simp [wordsField, Dtype.itemsize, List.length_flatMap]

theorem indexField_packed (index : BitVec 64) : (indexField index).Packed .i64 :=
  ⟨lookup_i64, Nat.one_lt_two_pow (by decide), rfl⟩

theorem toInts_sizes (unicode : Unicode) (shape : List Nat) :
    JsonValue.toInts unicode (.arr (shape.map fun n : Nat => .int n)) = .ok (shape.map Nat.cast) := by
  show (shape.map fun n : Nat => Json.Value.int (n : Int)).mapM (JsonValue.toInt unicode) = _
  rw [mapM_ok_iff, List.forall₂_map_left_iff, List.forall₂_map_right_iff, List.forall₂_same]
  exact fun _ _ => rfl

theorem reshape_sizes (shape : List Nat) : reshape shape.prod (shape.map Nat.cast) = .ok shape := by
  have hneg : (shape.map (Nat.cast : Nat → Int)).countP (· < 0) = 0 := by
    rw [List.countP_eq_zero]
    intro n hn
    obtain ⟨m, -, rfl⟩ := List.mem_map.mp hn
    simp
  have hmap : (shape.map (Nat.cast : Nat → Int)).map Int.toNat = shape := by
    rw [List.map_map]
    exact List.map_id _
  have hall : (shape.map (Nat.cast : Nat → Int)).filter (0 ≤ ·) = shape.map Nat.cast := by
    rw [List.filter_eq_self]
    intro n hn
    obtain ⟨m, -, rfl⟩ := List.mem_map.mp hn
    simp
  unfold reshape
  simp only [hneg, hall, hmap, if_true]

theorem frombuffer_natCast {payload : List UInt8} {dtype : Dtype} {count offset : Nat} (hcount : count < 2 ^ 63) :
    frombuffer payload dtype count offset =
      if payload.length < offset + count * dtype.itemsize then .error .value
      else .ok (readEntries dtype count (payload.drop offset)) := by
  have hrange : ¬¬(-2 ^ 63 ≤ (count : Int) ∧ (count : Int) < 2 ^ 63) := by omega
  have hpos : ¬(count : Int) < 0 := by omega
  unfold frombuffer
  rw [if_neg hrange]
  dsimp only
  rw [if_neg hpos, Int.toNat_natCast, Int.toNat_natCast, List.length_drop]
  by_cases hoffset : (offset : Int) < 0 ∨ (payload.length : Int) < offset
  · rw [if_pos hoffset, if_pos (by omega)]
  · rw [if_neg hoffset]
    exact if_congr (by omega) rfl rfl

section
variable (i : Interpreter) {payload : List UInt8}

/-- A field is read where its bytes are, if they all are there. -/
theorem decodeField_packed {f : Field} {dtype : Dtype} (h : f.Packed dtype) (offset : Nat) :
    decodeField i payload f.descriptor offset =
      if payload.length < offset + f.bytes.length then .error (.python .value)
      else .ok (Json.text f.name, ⟨f.shape, readEntries dtype f.shape.prod (payload.drop offset)⟩, (offset + f.bytes.length : Nat)) := by
  have hdtype : getAttr f.descriptor "dtype" = .ok (some (.str (Json.text f.dtype))) := rfl
  have hshape : getAttr f.descriptor "shape" = .ok (some (.arr (f.shape.map fun n : Nat => .int n))) := rfl
  have hname : getAttr f.descriptor "name" = .ok (some (.str (Json.text f.name))) := rfl
  have hprod : (f.shape.map (Nat.cast : Nat → Int)).prod = (f.shape.prod : Nat) := (Nat.cast_list_prod _).symm
  unfold decodeField
  simp only [hdtype, hshape, hname, Except.mapError, bind, Except.bind, h.known, Option.elim, Option.getD, toInts_sizes, hprod,
    frombuffer_natCast h.count, h.bytes]
  by_cases hshort : payload.length < offset + f.shape.prod * dtype.itemsize
  · rw [if_pos hshort, if_pos hshort]
  · rw [if_neg hshort, if_neg hshort]
    simp only [readEntries_length, reshape_sizes, Nat.cast_add, Nat.cast_mul]

/-! ### The fields of a body -/

/-- The fields are decoded when the body has the bytes of all of them. -/
theorem decodeFields_ok_iff {fields : List Field} (h : ∀ f ∈ fields, ∃ dtype, f.Packed dtype) {offset : Nat}
    (hoffset : offset ≤ payload.length) (read : List (Json.Text × FieldValue)) :
    (∃ all, decodeFields i payload (fields.map Field.descriptor) offset read = .ok all) ↔
      offset + (fields.flatMap Field.bytes).length ≤ payload.length := by
  induction fields generalizing offset read with
  | nil => exact ⟨fun _ => hoffset, fun _ => ⟨read, rfl⟩⟩
  | cons f fields ih =>
    obtain ⟨dtype, hf⟩ := h f (List.mem_cons_self ..)
    rw [List.map_cons, List.flatMap_cons, List.length_append, ← Nat.add_assoc]
    unfold decodeFields
    rw [decodeField_packed i hf]
    by_cases hshort : payload.length < offset + f.bytes.length
    · rw [if_pos hshort]
      refine ⟨fun ⟨_, hall⟩ => (by cases hall), fun hall => ?_⟩
      omega
    · rw [if_neg hshort]
      exact ih (fun g hg => h g (List.mem_cons_of_mem _ hg)) (Nat.le_of_not_lt hshort) _

/-- The bytes of a field are those of a value. -/
def Field.Holds (f : Field) (v : FieldValue) : Prop :=
  ∃ dtype, f.Packed dtype ∧ v.shape = f.shape ∧ ∀ rest, readEntries dtype f.shape.prod (f.bytes ++ rest) = v.entries

theorem decodeFields_holds {sent : List (Field × FieldValue)} (h : ∀ s ∈ sent, s.1.Holds s.2) (before rest : List UInt8)
    (read : List (Json.Text × FieldValue)) (hnames : (read.map Prod.fst ++ sent.map fun s => Json.text s.1.name).Nodup) :
    decodeFields i (before ++ ((sent.map Prod.fst).flatMap Field.bytes ++ rest)) ((sent.map Prod.fst).map Field.descriptor)
      before.length read = .ok (read ++ sent.map fun s => (Json.text s.1.name, s.2)) := by
  induction sent generalizing before read with
  | nil =>
    show Except.ok read = .ok (read ++ [])
    rw [List.append_nil]
  | cons s sent ih =>
    obtain ⟨dtype, hf, hshape, hread⟩ := h s (List.mem_cons_self ..)
    have hvalue : (⟨s.1.shape, readEntries dtype s.1.shape.prod (s.1.bytes ++ ((sent.map Prod.fst).flatMap Field.bytes ++ rest))⟩ :
        FieldValue) = s.2 := by
      rw [hread, ← hshape]
    have hlong : ¬(before ++ (s.1.bytes ++ ((sent.map Prod.fst).flatMap Field.bytes ++ rest))).length <
        before.length + s.1.bytes.length := by
      rw [List.length_append, List.length_append]
      omega
    have hnew : Json.text s.1.name ∉ read.map Prod.fst := fun hmem =>
      (List.nodup_append.mp hnames).2.2 _ hmem _ (List.mem_cons_self ..) rfl
    have hnames' : ((read ++ [(Json.text s.1.name, s.2)]).map Prod.fst ++ sent.map fun s => Json.text s.1.name).Nodup := by
      simpa using hnames
    have hrest := ih (fun t ht => h t (List.mem_cons_of_mem _ ht)) (before ++ s.1.bytes) _ hnames'
    rw [List.append_assoc, List.append_assoc, List.singleton_append] at hrest
    simp only [List.map_cons, List.flatMap_cons, List.append_assoc]
    unfold decodeFields
    rw [decodeField_packed i hf, if_neg hlong, List.drop_left, hvalue]
    dsimp only [bind, Except.bind]
    rw [Json.insert_new hnew, ← List.length_append]
    exact hrest

end

/-! ### The header -/

/-- The fields of a message, but for their bytes: the hands are given or not. -/
def layout (left right : Bool) : List Field :=
  [⟨"token_state", "f32", [1, 64], []⟩, ⟨"frame_index", "i64", [1], []⟩] ++
    ((if left then [⟨"left_hand_joints", "f32", [1, 7], []⟩] else []) ++ if right then [⟨"right_hand_joints", "f32", [1, 7], []⟩] else [])

def Laid (fields : List Field) : Prop := ∃ left right, fields.map Field.descriptor = (layout left right).map Field.descriptor

theorem layout_names (left right : Bool) : ((layout left right).map fun f => Json.text f.name).Nodup := by
  cases left <;> cases right <;> decide

theorem layout_bytes (left right : Bool) : (headerBytes (layout left right)).length ≤ headerSize ∧
    (headerBytes (layout left right)).getLast? = some 125 ∧
    Bytes.decodeUtf8 (headerBytes (layout left right)) = some (Json.dumps (fun _ => []) (headerValue (layout left right))) := by
  cases left <;> cases right <;> decide +kernel

theorem layout_loads (left right : Bool) :
    Json.loads ⟨4, intMaxStrDigits⟩ pythonFloats (Json.dumps (fun _ => []) (headerValue (layout left right))) =
      .ok (headerValue (layout left right)) := by
  have h : (Json.loads ⟨4, intMaxStrDigits⟩ pythonFloats (Json.dumps (fun _ => []) (headerValue (layout left right)))).toOption.any
      (·.beq (headerValue (layout left right))) = true := by
    cases left <;> cases right <;> decide +kernel
  cases hloads : Json.loads ⟨4, intMaxStrDigits⟩ pythonFloats (Json.dumps (fun _ => []) (headerValue (layout left right))) with
  | error e =>
    rw [hloads] at h
    cases h
  | ok v =>
    rw [hloads] at h
    exact congrArg _ (Json.Value.eq_of_beq v _ h)

section
variable {fields : List Field} (h : Laid fields)
include h

theorem Laid.header : ∃ left right, headerValue fields = headerValue (layout left right) ∧
    headerBytes fields = headerBytes (layout left right) := by
  obtain ⟨left, right, h⟩ := h
  have hvalue : headerValue fields = headerValue (layout left right) := by
    unfold headerValue
    rw [h]
  refine ⟨left, right, hvalue, ?_⟩
  unfold headerBytes
  rw [hvalue]

theorem Laid.fits : (headerBytes fields).length ≤ headerSize := by
  obtain ⟨left, right, -, hbytes⟩ := h.header
  rw [hbytes]
  exact (layout_bytes left right).1

theorem Laid.stripped : ((headerBytes fields).rightpad headerSize 0).rdropWhile (· = 0) = headerBytes fields := by
  obtain ⟨left, right, -, hbytes⟩ := h.header
  rw [hbytes]
  exact Bytes.rdropWhile_rightpad (layout_bytes left right).2.1 (by decide) _

theorem Laid.read {i : Interpreter} (hdepth : 4 ≤ i.jsonDepth) :
    readHeader i (headerBytes fields) = .ok (fields.map Field.descriptor) := by
  obtain ⟨left, right, hvalue, hbytes⟩ := h.header
  have hloads : Json.loads ⟨i.jsonDepth, intMaxStrDigits⟩ pythonFloats (Json.dumps (fun _ => []) (headerValue (layout left right))) =
      .ok (headerValue (layout left right)) := by
    refine Json.loads_mono ?_ ?_ (layout_loads left right)
    · exact hdepth
    · rfl
  unfold readHeader
  rw [hbytes, (layout_bytes left right).2.2]
  dsimp only
  rw [hloads, ← hvalue]
  rfl

end

/-- What comes before the bodies of some fields. -/
def poseHead (fields : List Field) : List UInt8 := topic ++ (headerBytes fields).rightpad headerSize 0

theorem assemble_laid {fields : List Field} (h : Laid fields) : assemble fields = .ok (poseHead fields ++ fields.flatMap Field.bytes) :=
  if_neg (Nat.not_lt.mpr h.fits)

theorem poseHead_length {fields : List Field} (h : Laid fields) : (poseHead fields).length = 4 + headerSize := by
  unfold poseHead
  rw [List.length_append, List.length_rightpad, Nat.max_eq_left h.fits]
  rfl

/-- A message that is not shorter than its header is decoded as its header says. -/
theorem decode_poseHead {i : Interpreter} (hdepth : 4 ≤ i.jsonDepth) {fields : List Field} (h : Laid fields) (body : List UInt8) :
    decodeProtocolV4 i (poseHead fields ++ body) =
      (decodeFields i (poseHead fields ++ body) (fields.map Field.descriptor) (poseHead fields).length []).map
        fun all => ⟨all, (poseHead fields ++ body).length⟩ := by
  have htopic : topic.isPrefixOf (poseHead fields ++ body) = true :=
    List.isPrefixOf_iff_prefix.mpr ((List.prefix_append _ _).trans (List.prefix_append _ _))
  have hlong : ¬(poseHead fields ++ body).length < 4 + headerSize := by
    rw [List.length_append, poseHead_length h]
    omega
  have hheader : ((poseHead fields ++ body).take (4 + headerSize)).drop 4 = (headerBytes fields).rightpad headerSize 0 := by
    rw [List.take_left' (poseHead_length h)]
    exact List.drop_left' rfl
  unfold decodeProtocolV4
  rw [htopic, if_neg (by simp), if_neg hlong, hheader, h.stripped, h.read hdepth, ← poseHead_length h]
  dsimp only [Except.mapError, bind, Except.bind]
  cases decodeFields i (poseHead fields ++ body) (fields.map Field.descriptor) (poseHead fields).length [] <;> rfl

theorem decode_short (i : Interpreter) {payload : List UInt8} (h : payload.length < 4 + headerSize) :
    ∃ e, decodeProtocolV4 i payload = .error e := by
  unfold decodeProtocolV4
  split
  · exact ⟨_, rfl⟩
  · exact ⟨_, rfl⟩

/-! ### The fields that are sent -/

/-- A finite row of a width. -/
def Float32Array.IsRow (a : Float32Array) (width : Nat) : Prop :=
  (a.shape = [width] ∨ a.shape = [1, width]) ∧ ∀ w ∈ a.words, isFinite w = true

section
variable {a : Float32Array} {width : Nat} (h : a.IsRow width)
include h

theorem Float32Array.IsRow.length : a.words.length = width := by
  rw [a.size]
  rcases h.1 with h | h <;> rw [h] <;> simp

theorem oneRow_ok (name : String) : oneRow name width a = .ok a.words := by
  have hshape : (if a.shape = [width] then [1, width] else a.shape) = [1, width] := by
    rcases h.1 with h | h <;> rw [h] <;> simp
  have hfinite : a.words.all isFinite = true := List.all_eq_true.mpr h.2
  unfold oneRow
  simp [hshape, hfinite]

end

theorem handField_ok (name : String) {hand : Option Float32Array} (h : ∀ a ∈ hand, a.IsRow 7) :
    handField name hand = .ok (hand.toList.map fun a => wordsField name a.words) := by
  cases hand with
  | none => rfl
  | some a =>
    show (oneRow name 7 a).map _ = _
    rw [oneRow_ok (h a rfl)]
    rfl

/-- The value of a row. -/
def rowValue (a : Float32Array) : FieldValue := ⟨[1, a.words.length], a.words.map .f32⟩

def handSent (name : String) (hand : Option Float32Array) : List (Field × FieldValue) :=
  hand.toList.map fun a => (wordsField name a.words, rowValue a)

/-- The fields of a message with their values. -/
def sent (token : Float32Array) (index : BitVec 64) (left right : Option Float32Array) : List (Field × FieldValue) :=
  [(wordsField "token_state" token.words, rowValue token), (indexField index, ⟨[1], [.i64 index.toInt]⟩)] ++
    (handSent "left_hand_joints" left ++ handSent "right_hand_joints" right)

theorem wordsField_holds (name : String) {a : Float32Array} (h : a.words.length < 2 ^ 63) :
    (wordsField name a.words).Holds (rowValue a) := by
  refine ⟨.f32, wordsField_packed name h, rfl, fun rest => ?_⟩
  have hprod : (wordsField name a.words).shape.prod = a.words.length := by simp [wordsField]
  rw [hprod]
  exact readEntries_words a.words rest

theorem indexField_holds (index : BitVec 64) : (indexField index).Holds ⟨[1], [.i64 index.toInt]⟩ :=
  ⟨.i64, indexField_packed index, rfl, readEntries_index index⟩

theorem wordsField_descriptor (name : String) {words : List (BitVec 32)} {width : Nat} (h : words.length = width) :
    (wordsField name words).descriptor = Field.descriptor ⟨name, "f32", [1, width], []⟩ := by
  subst h
  rfl

section
variable {token : Float32Array} (index : BitVec 64) {left right : Option Float32Array} (htoken : token.IsRow 64)
  (hleft : ∀ a ∈ left, a.IsRow 7) (hright : ∀ a ∈ right, a.IsRow 7)
include htoken hleft hright

theorem sent_holds : ∀ s ∈ sent token index left right, s.1.Holds s.2 := by
  have hhand : ∀ (name : String) (hand : Option Float32Array), (∀ a ∈ hand, a.IsRow 7) → ∀ s ∈ handSent name hand, s.1.Holds s.2 := by
    intro name hand hrow s hs
    obtain ⟨a, ha, rfl⟩ := List.mem_map.mp hs
    exact wordsField_holds name (by rw [(hrow a (Option.mem_toList.mp ha)).length]; decide)
  intro s hs
  rcases List.mem_append.mp hs with hs | hs
  · rcases List.mem_cons.mp hs with rfl | hs
    · exact wordsField_holds _ (by rw [htoken.length]; decide)
    · obtain rfl := List.mem_singleton.mp hs
      exact indexField_holds index
  · rcases List.mem_append.mp hs with hs | hs
    · exact hhand _ left hleft s hs
    · exact hhand _ right hright s hs

theorem sent_laid : Laid ((sent token index left right).map Prod.fst) := by
  have hhand : ∀ (name : String) (hand : Option Float32Array), (∀ a ∈ hand, a.IsRow 7) →
      ((handSent name hand).map Prod.fst).map Field.descriptor =
        (if hand.isSome then [⟨name, "f32", [1, 7], []⟩] else [] : List Field).map Field.descriptor := by
    intro name hand hrow
    cases hand with
    | none => rfl
    | some a => exact congrArg (fun d => [d]) (wordsField_descriptor name (hrow a rfl).length)
  refine ⟨left.isSome, right.isSome, ?_⟩
  unfold sent layout
  simp only [List.map_append, hhand _ left hleft, hhand _ right hright]
  exact congrArg (fun d => [d, (indexField index).descriptor] ++ _) (wordsField_descriptor "token_state" htoken.length)

end

theorem sent_names (token : Float32Array) (index : BitVec 64) (left right : Option Float32Array) :
    ((sent token index left right).map fun s => Json.text s.1.name).Nodup := by
  have hlayout : (sent token index left right).map (fun s => Json.text s.1.name) =
      (layout left.isSome right.isSome).map fun f => Json.text f.name := by
    cases left <;> cases right <;> rfl
  rw [hlayout]
  exact layout_names _ _

/-! ### The round trip -/

/-- What a decoded message has of what was packed, in the order in which it is sent. -/
def sentFields (token : Float32Array) (frameIndex : Int) (left right : Option Float32Array) : List (Json.Text × FieldValue) :=
  [(Json.text "token_state", rowValue token), (Json.text "frame_index", ⟨[1], [.i64 frameIndex]⟩)] ++
    (left.toList.map (fun a => (Json.text "left_hand_joints", rowValue a)) ++
      right.toList.map fun a => (Json.text "right_hand_joints", rowValue a))

theorem readIndex_ok {n : Int} (h : 0 ≤ n ∧ n < 2 ^ 63) :
    ∃ index, readIndex [n] = .ok index ∧ ∀ token left right,
      (sent token index left right).map (fun s => (Json.text s.1.name, s.2)) = sentFields token n left right := by
  refine ⟨BitVec.ofInt 64 n, ?_, fun token left right => ?_⟩
  · have hrange : ([n].all fun n => -2 ^ 63 ≤ n ∧ n < 2 ^ 63) = true := by
      simp only [List.all_cons, List.all_nil, Bool.and_true, decide_eq_true_eq]
      omega
    unfold readIndex
    rw [hrange]
    rfl
  · have hn : (BitVec.ofInt 64 n).toInt = n := by
      rw [BitVec.toInt_ofInt]
      exact Int.bmod_eq_of_le (by omega) (by omega)
    unfold sent sentFields
    rw [hn]
    cases left <;> cases right <;> rfl

/-- The bytes of a message, by its fields. -/
theorem pack_sent {token : Float32Array} {frameIndex : List Int} {index : BitVec 64} {left right : Option Float32Array}
    (htoken : token.IsRow 64) (hindex : readIndex frameIndex = .ok index) (hleft : ∀ a ∈ left, a.IsRow 7)
    (hright : ∀ a ∈ right, a.IsRow 7) :
    packLatentActionMessage token frameIndex left right = .ok (poseHead ((sent token index left right).map Prod.fst) ++
      ((sent token index left right).map Prod.fst).flatMap Field.bytes) := by
  have hfields : [wordsField "token_state" token.words, indexField index] ++
      left.toList.map (fun a => wordsField "left_hand_joints" a.words) ++
        right.toList.map (fun a => wordsField "right_hand_joints" a.words) = (sent token index left right).map Prod.fst := by
    cases left <;> cases right <;> rfl
  unfold packLatentActionMessage
  rw [oneRow_ok htoken, hindex, handField_ok _ hleft, handField_ok _ hright]
  dsimp only [bind, Except.bind]
  rw [hfields]
  exact assemble_laid (sent_laid index htoken hleft hright)

theorem decode_sent {i : Interpreter} (hdepth : 4 ≤ i.jsonDepth) {sent : List (Field × FieldValue)} (hlaid : Laid (sent.map Prod.fst))
    (hholds : ∀ s ∈ sent, s.1.Holds s.2) (hnames : (sent.map fun s => Json.text s.1.name).Nodup) (rest : List UInt8) :
    decodeProtocolV4 i (poseHead (sent.map Prod.fst) ++ ((sent.map Prod.fst).flatMap Field.bytes ++ rest)) =
      .ok ⟨sent.map fun s => (Json.text s.1.name, s.2),
        (poseHead (sent.map Prod.fst) ++ ((sent.map Prod.fst).flatMap Field.bytes ++ rest)).length⟩ := by
  rw [decode_poseHead hdepth hlaid, decodeFields_holds i hholds _ rest [] hnames]
  rfl

/-- A header with another body is decoded when the body is long enough. -/
theorem decode_body {i : Interpreter} (hdepth : 4 ≤ i.jsonDepth) {fields : List Field} (hlaid : Laid fields)
    (hpacked : ∀ f ∈ fields, ∃ dtype, f.Packed dtype) (body : List UInt8) :
    (∃ m, decodeProtocolV4 i (poseHead fields ++ body) = .ok m) ↔ (fields.flatMap Field.bytes).length ≤ body.length := by
  have hoffset : (poseHead fields).length ≤ (poseHead fields ++ body).length := by
    rw [List.length_append]
    omega
  have hall := decodeFields_ok_iff i hpacked hoffset []
  rw [List.length_append, Nat.add_le_add_iff_left] at hall
  rw [decode_poseHead hdepth hlaid, ← hall]
  refine ⟨fun ⟨m, hm⟩ => ?_, fun ⟨all, h⟩ => ⟨_, congrArg _ h⟩⟩
  obtain ⟨all, h, -⟩ := map_ok hm
  exact ⟨all, h⟩

/-- A packed message is decoded to the fields that went in, also with more bytes behind it. No strict prefix of it is decoded, and
    its header with another body only when the body is not shorter. -/
theorem protocol_round_trip (i : Interpreter) (hdepth : 4 ≤ i.jsonDepth) (token : Float32Array) (frameIndex : Int)
    (left right : Option Float32Array) (htoken : token.IsRow 64) (hindex : 0 ≤ frameIndex ∧ frameIndex < 2 ^ 63)
    (hleft : ∀ a ∈ left, a.IsRow 7) (hright : ∀ a ∈ right, a.IsRow 7) :
    ∃ message, packLatentActionMessage token [frameIndex] left right = .ok message ∧
      decodeProtocolV4 i message = .ok ⟨sentFields token frameIndex left right, message.length⟩ ∧
      (∀ rest, decodeProtocolV4 i (message ++ rest) = .ok ⟨sentFields token frameIndex left right, (message ++ rest).length⟩) ∧
      (∀ payload, payload <+: message → payload ≠ message → ∃ e, decodeProtocolV4 i payload = .error e) ∧
      ∀ body, (∃ m, decodeProtocolV4 i (message.take (4 + headerSize) ++ body) = .ok m) ↔
        message.length ≤ (message.take (4 + headerSize) ++ body).length := by
  obtain ⟨index, hread, hsent⟩ := readIndex_ok hindex
  have hlaid := sent_laid index htoken hleft hright
  have hholds := sent_holds index htoken hleft hright
  have hpacked : ∀ f ∈ (sent token index left right).map Prod.fst, ∃ dtype, f.Packed dtype := by
    intro f hf
    obtain ⟨s, hs, rfl⟩ := List.mem_map.mp hf
    obtain ⟨dtype, hdtype, -⟩ := hholds s hs
    exact ⟨dtype, hdtype⟩
  have hhead := poseHead_length hlaid
  have hrest := decode_sent hdepth hlaid hholds (sent_names token index left right)
  have hbody := decode_body hdepth hlaid hpacked
  rw [hsent] at hrest
  refine ⟨_, pack_sent htoken hread hleft hright, ?_⟩
  generalize poseHead ((sent token index left right).map Prod.fst) = head at *
  generalize ((sent token index left right).map Prod.fst).flatMap Field.bytes = bytes at *
  have hlong : ∀ body, (∃ m, decodeProtocolV4 i (head ++ body) = .ok m) ↔ (head ++ bytes).length ≤ (head ++ body).length := by
    intro body
    rw [hbody, List.length_append, List.length_append, Nat.add_le_add_iff_left]
  refine ⟨?_, fun rest => ?_, fun payload hp hne => ?_, fun body => ?_⟩
  · have hnil := hrest []
    rwa [List.append_nil] at hnil
  · rw [List.append_assoc]
    exact hrest rest
  · by_cases hshort : payload.length < 4 + headerSize
    · exact decode_short i hshort
    · -- A prefix that has the header has the start of the body.
      have hstart : head <+: payload := List.prefix_of_prefix_length_le (List.prefix_append _ _) hp (by omega)
      obtain ⟨body, rfl⟩ := hstart
      have hlt : (head ++ body).length < (head ++ bytes).length :=
        lt_of_le_of_ne hp.length_le fun heq => hne (hp.eq_of_length heq)
      cases hdecode : decodeProtocolV4 i (head ++ body) with
      | error e => exact ⟨e, rfl⟩
      | ok m => exact absurd ((hlong body).mp ⟨m, hdecode⟩) (Nat.not_le.mpr hlt)
  · rw [List.take_left' hhead]
    exact hlong body

/-- Python's recursion limit, and ASCII alone. No name of a packed field is other than a string. -/
def plainInterpreter : Interpreter := ⟨⟨fun _ => none, fun _ => false⟩, 1000, fun _ => []⟩

def zeros (width : Nat) : Float32Array := ⟨[width], List.replicate width 0, by simp⟩

theorem zeros_isRow (width : Nat) : (zeros width).IsRow width := by
  refine ⟨.inl rfl, fun w hw => ?_⟩
  obtain rfl := List.eq_of_mem_replicate hw
  decide

theorem protocol_round_trip_zeros : ∃ message,
    packLatentActionMessage (zeros 64) [17] (some (zeros 7)) none = .ok message ∧
      decodeProtocolV4 plainInterpreter message = .ok ⟨sentFields (zeros 64) 17 (some (zeros 7)) none, message.length⟩ := by
  obtain ⟨message, hpack, hdecode, -⟩ := protocol_round_trip plainInterpreter (by decide) (zeros 64) 17 (some (zeros 7)) none
    (zeros_isRow 64) (by decide) (fun a ha => Option.some.inj ha ▸ zeros_isRow 7) nofun
  exact ⟨message, hpack, hdecode⟩

/-- One byte behind a message is not noticed. -/
theorem protocol_trailing_byte : ∃ message m, packLatentActionMessage (zeros 64) [0] none none = .ok message ∧
    decodeProtocolV4 plainInterpreter (message ++ [0]) = .ok m := by
  obtain ⟨index, hread, -⟩ := readIndex_ok (n := 0) (by decide)
  have hlaid : Laid ((sent (zeros 64) index none none).map Prod.fst) := sent_laid index (zeros_isRow 64) nofun nofun
  have hholds : ∀ s ∈ sent (zeros 64) index none none, s.1.Holds s.2 := sent_holds index (zeros_isRow 64) nofun nofun
  have hdepth : 4 ≤ plainInterpreter.jsonDepth := by decide
  have hdecode := decode_sent hdepth hlaid hholds (sent_names _ _ _ _) [0]
  rw [← List.append_assoc] at hdecode
  exact ⟨_, _, pack_sent (zeros_isRow 64) hread nofun nofun, hdecode⟩

end HumanoidLab.ProtocolV4
