import ComputeShader.Proofs.FailedOperations
import ComputeShader.Proofs.RoundedProducts

/-! # Copies of texels

What an image load gives, stored into an image of the same format, is the texel that was loaded. Formats of
words keep each word as it is. A byte of a normalized format becomes a fraction and the nearest byte again,
which is the same byte but for the least one of `rgba8_snorm`: that one counts as -1, as the next one does.
No value is encoded with this byte, so that a texel that was stored once is copied exactly.
-/

namespace ComputeShader

/-! ## Normalized channels -/

namespace Single

variable {x : Single}

theorem natAbs_rank (x : Single) : x.rank.natAbs = x.magnitude.toNat := by
  unfold rank
  split
  · exact Int.natAbs_neg _
  · rfl

/-- A number forced between -1 and 1 has a magnitude of at most one. -/
theorem clamp_cases (x : Single) :
    (x.clamp (ofInt (-1)) one).isNaN ∨ (x.clamp (ofInt (-1)) one).magnitude ≤ one.magnitude := by
  have lowest : (ofInt (-1)).rank = -0x3f800000 := by decide +kernel
  have highest : one.rank = 0x3f800000 := by decide
  unfold clamp
  split
  · exact .inr (by decide +kernel)
  split
  · exact .inr (UInt32.le_refl _)
  · next above below =>
    rcases Bool.eq_false_or_eq_true x.isNaN with special | number
    · exact .inl special
    · have low : (ofInt (-1)).isNaN = false := by decide +kernel
      have high : one.isNaN = false := by decide
      have above : -0x3f800000 ≤ x.rank := by simpa [lt, number, low, lowest] using above
      have below : x.rank ≤ 0x3f800000 := by simpa [lt, number, high, highest] using below
      right
      change x.magnitude.toNat ≤ 0x3f800000
      have absolute := x.natAbs_rank
      omega

/-- A NaN remains one in a product. -/
theorem bits_mul_of_isNaN (special : x.isNaN) (y : Single) : (x.mul y).bits = 0x7fc00000 := by
  have unpacked : x.unpacked = .notANumber := unpack_of_special (special_of_isNaN special)
  apply UInt32.toBitVec_inj.1
  rw [toBitVec_mul, unpacked]
  rfl

/-- A number of magnitude at most 127 is rounded to an integer between -127 and 127. -/
theorem roundAway_bounds (small : x.magnitude.toNat ≤ (ofInt 127).magnitude.toNat) :
    -127 ≤ x.roundAway ∧ x.roundAway ≤ 127 := by
  have largest : (ofInt 127).magnitude.toNat = 132 * 2 ^ 23 + 127 * 2 ^ 17 := by decide +kernel
  rw [largest] at small
  have reads := x.reads
  unfold roundAway
  generalize x.datum = d at reads ⊢
  cases reads with
  | nan | infinite =>
    dsimp only
    omega
  | @finite negative s e number =>
    rw [number.toNat_magnitude] at small
    obtain ⟨few, low, -, full, -⟩ := number
    obtain ⟨k, rfl⟩ : ∃ k : Nat, e = .negSucc k := ⟨(-e - 1).toNat, by omega⟩
    have fits : s ≤ 127 * twoPow (k + 1) := by
      rcases Nat.lt_or_ge k 17 with here | smaller
      · obtain rfl : k = 16 := by omega
        change s ≤ 127 * 2 ^ 17
        omega
      · have large : 2 ^ 18 ≤ twoPow (k + 1) := Nat.pow_le_pow_right Nat.two_pos (by omega)
        omega
    have rounded : divNearestAway s (twoPow (k + 1)) ≤ 127 := by
      apply Nat.le_of_lt_succ
      apply Nat.div_lt_of_lt_mul
      have some := twoPow_pos (k + 1)
      omega
    dsimp only
    split <;> omega

end Single

namespace TexelFormat

/-- No value is encoded as the least byte. -/
theorem snormEncode_ne_least (x : Single) : snormEncode x ≠ 0x80 := by
  obtain ⟨low, high⟩ : -127 ≤ ((x.clamp (Single.ofInt (-1)) Single.one).mul (Single.ofInt 127)).roundAway ∧
      ((x.clamp (Single.ofInt (-1)) Single.one).mul (Single.ofInt 127)).roundAway ≤ 127 := by
    rcases x.clamp_cases with special | small
    · have bits := Single.bits_mul_of_isNaN special (Single.ofInt 127)
      rw [Single.roundAway, Single.datum, bits]
      decide
    · apply Single.roundAway_bounds
      exact Single.magnitude_mul_le small (by decide +kernel)
  intro least
  have least : (Int8.ofInt _).toUInt8.toInt8.toInt = -128 := congrArg (fun b => b.toInt8.toInt) least
  rw [Int8.toInt8_toUInt8, Int8.toInt_ofInt_of_le (by omega) (by omega)] at least
  omega

/-- The byte that is stored for what is loaded from a byte. -/
def settled (f : TexelFormat) (b : UInt8) : UInt8 :=
  if f = .rgba8Snorm ∧ b = 0x80 then 0x81 else b

theorem unormEncode_unormDecode (b : UInt8) : unormEncode (unormDecode b) = b := by
  have all : ∀ i : Fin 256, unormEncode (unormDecode (UInt8.ofNat i)) = UInt8.ofNat i := by
    decide +kernel
  simpa using all ⟨b.toNat, b.toNat_lt⟩

theorem snormEncode_snormDecode (b : UInt8) :
    snormEncode (snormDecode b) = settled .rgba8Snorm b := by
  have all : ∀ i : Fin 256,
      snormEncode (snormDecode (UInt8.ofNat i)) = settled .rgba8Snorm (UInt8.ofNat i) := by
    decide +kernel
  simpa using all ⟨b.toNat, b.toNat_lt⟩

/-! ## Texels -/

variable {f : TexelFormat} {bytes : List UInt8}

theorem length_channelBits (size : bytes.length = f.texelSize) :
    (f.channelBits bytes).length = f.channels := by
  cases f with
  | rgba8 | rgba8Snorm => exact (List.length_map _).trans size
  | rgba32f | r32f | r32i | r32ui | rgba32i | rgba32ui =>
    apply (LittleEndian.length_words bytes).trans
    rw [size]
    rfl

/-- What the channels of a texel are encoded as. -/
theorem encodeBits_channelBits (size : bytes.length = f.texelSize) :
    f.encodeBits (f.channelBits bytes) = bytes.map f.settled := by
  have whole : (f.channelBits bytes).take f.channels = f.channelBits bytes :=
    List.take_of_length_le (Nat.le_of_eq (length_channelBits size))
  rw [encodeBits, whole]
  cases f with
  | rgba8 =>
    change (bytes.map fun b => (unormDecode b).bits).flatMap (fun w => [unormEncode ⟨w⟩]) = bytes.map id
    rw [← List.map_eq_flatMap, List.map_map]
    exact List.map_congr_left fun b _ => unormEncode_unormDecode b
  | rgba8Snorm =>
    change (bytes.map fun b => (snormDecode b).bits).flatMap (fun w => [snormEncode ⟨w⟩]) = _
    rw [← List.map_eq_flatMap, List.map_map]
    exact List.map_congr_left fun b _ => snormEncode_snormDecode b
  | rgba32f | r32f | r32i | r32ui | rgba32i | rgba32ui =>
    change (LittleEndian.words bytes).flatMap LittleEndian.bytes = bytes.map id
    rw [List.map_id]
    apply LittleEndian.flatMap_bytes_words
    rw [size]
    rfl

/-- The channels that a format has are those of the loaded value. -/
theorem exists_bits_decode (size : bytes.length = f.texelSize) :
    ∃ absent, (f.decode bytes).bits = f.channelBits bytes ++ absent := by
  refine ⟨[0, 0, 0, (Scalar.one f.kind).toBits].drop f.channels, ?_⟩
  have length := length_channelBits size
  have whole : (f.channelBits bytes).take f.channels = f.channelBits bytes :=
    List.take_of_length_le (Nat.le_of_eq length)
  rw [decode, whole]
  apply Value.bits_ofBits
  constructor
  · rw [List.length_append, length, List.length_drop]
    cases f <;> rfl
  · intro w _
    cases f <;> rfl

/-- A texel that was loaded is encoded as it was, but for the least byte. -/
theorem encode_decode (size : bytes.length = f.texelSize) :
    f.encode (f.decode bytes) = .ok (bytes.map f.settled) := by
  obtain ⟨absent, bits⟩ := exists_bits_decode size
  have typed : (f.decode bytes).ty = f.loadType := rfl
  have short : (f.channelBits bytes ++ absent).take f.channels = (f.channelBits bytes).take f.channels :=
    List.take_append_of_le_length (Nat.le_of_eq (length_channelBits size).symm)
  rw [encode, if_pos typed, bits, encodeBits, short, ← encodeBits, encodeBits_channelBits size]

theorem settled_of_mem_encodeBits {bits : List UInt32} {b : UInt8} (member : b ∈ f.encodeBits bits) :
    f.settled b = b := by
  apply if_neg
  rintro ⟨rfl, rfl⟩
  obtain ⟨w, -, here⟩ := List.mem_flatMap.1 member
  exact snormEncode_ne_least ⟨w⟩ (List.mem_singleton.1 here).symm

/-- A texel that was encoded is given back exactly. -/
theorem encode_decode_of_encode {v : Value} (encoded : f.encode v = .ok bytes) :
    f.encode (f.decode bytes) = .ok bytes := by
  rw [encode_decode (f.length_encode encoded)]
  rw [encode] at encoded
  split at encoded
  · obtain rfl := Except.ok.inj encoded
    have settles : ∀ b ∈ f.encodeBits v.bits, f.settled b = id b := fun b => settled_of_mem_encodeBits
    rw [List.map_congr_left settles, List.map_id]
  · cases encoded

end TexelFormat

/-! ## Copies -/

namespace Store

variable {s : Store} {i j : Image} {binding : Binding} {me : InvocationId}

theorem resolve_inside {label : String} {index extent : Nat} (inside : index < extent) :
    resolve label index extent me s = .ok (some index) s := by
  have within : 0 ≤ (index : Int) ∧ (index : Int) < extent := by omega
  rw [resolve, if_pos within]
  rfl

theorem texelPosition_inside {x y : Nat} (left : x < i.width.toNat) (above : y < i.height.toNat) :
    texelPosition i binding x y me s = .ok (some (i.position x y)) s := by
  rw [texelPosition, bind_eq (resolve_inside left)]
  dsimp only
  rw [bind_eq (resolve_inside above)]
  rfl

theorem imageLoad_inside (found : s.images.get? binding = some i) {x y : Nat} (left : x < i.width.toNat)
    (above : y < i.height.toNat) : ∃ log conflicts, imageLoad binding x y me s =
      .ok (i.format.decode (i.bytes (i.position x y))) { s with log, conflicts } := by
  rw [imageLoad, bind_eq (imageAt_eq found), bind_eq (texelPosition_inside left above)]
  exact ⟨_, _, rfl⟩

theorem imageStore_inside (found : s.images.get? binding = some i) {x y : Nat} {v : Value}
    {bytes : List UInt8} (left : x < i.width.toNat) (above : y < i.height.toNat)
    (encoded : i.format.encode v = .ok bytes) : ∃ log conflicts, imageStore binding x y v me s =
      .ok () { s with images := s.images.insert binding (i.set (i.position x y) bytes), log, conflicts } := by
  have inserted : s.images.modify binding (·.set (i.position x y) bytes) =
      s.images.insert binding (i.set (i.position x y) bytes) := by
    refine Bindings.ext_get? fun key => ?_
    rw [Bindings.get?_modify, Bindings.get?_insert]
    split
    · next same => rw [same, found, Option.map_some]
    · rfl
  rw [imageStore, bind_eq (imageAt_eq found), encoded]
  dsimp only
  rw [bind_eq (texelPosition_inside left above), ← inserted]
  exact ⟨_, _, rfl⟩

theorem bytes_set {bytes : List UInt8} (proper : i.Proper) {x y : Nat} (left : x < i.width.toNat)
    (above : y < i.height.toNat) : (i.set (i.position x y) bytes).bytes (i.position x y) = bytes := by
  have inside : i.position x y < i.texels.size := proper.1 ▸ Image.position_lt_mul left above
  simp [Image.bytes, Image.set, inside]

/-- A texel that is loaded from one place and stored to another arrives there byte by byte, with 0x81 for the
least byte of `rgba8_snorm`, and nothing else of the store changes but the log and the conflicts. What was
encoded once is encoded the same after it was decoded. -/
theorem texels_copied :
    (∀ (s : Store) (a b : Binding) (i j : Image) (x y x' y' : Nat) (me me' : InvocationId),
      s.WellFormed → s.images.get? a = some i → s.images.get? b = some j → i.format = j.format →
      x < i.width.toNat → y < i.height.toNat → x' < j.width.toNat → y' < j.height.toNat →
      let bytes := (i.bytes (i.position x y)).map i.format.settled
      let j' := j.set (j.position x' y') bytes
      j'.bytes (j.position x' y') = bytes ∧ ∃ v s₁ log conflicts, imageLoad a x y me s = .ok v s₁ ∧
        imageStore b x' y' v me' s₁ =
          .ok () { s with images := s.images.insert b j', log, conflicts }) ∧
    ∀ (f : TexelFormat) (v : Value), v.ty = f.loadType →
      ∃ bytes, f.encode v = .ok bytes ∧ f.encode (f.decode bytes) = .ok bytes := by
  constructor
  · intro s a b i j x y x' y' me me' proper source target same left above left' above' bytes j'
    have inside : i.position x y < i.texels.size :=
      (proper.images a i source).1 ▸ Image.position_lt_mul left above
    have size : (i.bytes (i.position x y)).length = i.format.texelSize :=
      (proper.images a i source).2 _ inside
    have encoded : j.format.encode (i.format.decode (i.bytes (i.position x y))) = .ok bytes :=
      same ▸ i.format.encode_decode size
    refine ⟨bytes_set (proper.images b j target) left' above', ?_⟩
    obtain ⟨log, conflicts, loaded⟩ := imageLoad_inside source left above
    obtain ⟨log', conflicts', stored⟩ :=
      @imageStore_inside { s with log, conflicts } j b me' target x' y' _ _ left' above' encoded
    exact ⟨_, _, log', conflicts', loaded, stored⟩
  · intro f v typed
    have encoded : f.encode v = .ok (f.encodeBits v.bits) := if_pos typed
    exact ⟨_, encoded, f.encode_decode_of_encode encoded⟩

/-- A row and a column of signed texels. -/
def signedTexels : Store where
  shader := "signed"
  oobPolicy := .fault
  buffers := .empty
  images := .ofList [
    (4, ⟨"near", .rgba8Snorm, 2, 1, #[[1, 2, 3, 4], [0x80, 0x7f, 0xff, 0]]⟩),
    (7, ⟨"far", .rgba8Snorm, 1, 3, #[[0, 0, 0, 0], [5, 6, 7, 8], [9, 10, 11, 12]]⟩)]
  textures := .empty
  uniforms := []

/-- The right end of the row arrives at the lower end of the column, its least byte as the next one. A NaN is
encoded as zero, and remains zero. -/
theorem texels_copied_signed :
    let s := signedTexels
    let far : Image := ⟨"far", .rgba8Snorm, 1, 3, #[[0, 0, 0, 0], [5, 6, 7, 8], [0x81, 0x7f, 0xff, 0]]⟩
    let v : Value := .ofBits (.vector .float .four) [0x7fc00000, 0xbf000000, 0x40000000, 0xff800000]
    s.WellFormed ∧
      (∃ v s₁ log conflicts, imageLoad 4 1 0 0 s = .ok v s₁ ∧
        imageStore 7 0 2 v 3 s₁ = .ok () { s with images := s.images.insert 7 far, log, conflicts }) ∧
      TexelFormat.rgba8Snorm.encode v = .ok [0, 0xc0, 0x7f, 0x81] ∧
      ∃ bytes, TexelFormat.rgba8Snorm.encode v = .ok bytes ∧
        TexelFormat.rgba8Snorm.encode (TexelFormat.rgba8Snorm.decode bytes) = .ok bytes := by
  intro s far v
  have proper : s.WellFormed := by
    constructor
    · intro binding b found
      cases found
    · intro binding i found
      have listed := Bindings.mem_of_get?_ofList found
      simp only [List.mem_cons, Prod.mk.injEq, List.not_mem_nil, or_false] at listed
      rcases listed with ⟨-, rfl⟩ | ⟨-, rfl⟩ <;> exact ⟨by decide, by decide⟩
  obtain ⟨-, copied⟩ := texels_copied.1 s 4 7 _ _ 1 0 0 2 0 3 proper rfl rfl rfl
    (by decide) (by decide) (by decide) (by decide)
  exact ⟨proper, copied, by decide +kernel, texels_copied.2 .rgba8Snorm v rfl⟩

end Store

end ComputeShader
