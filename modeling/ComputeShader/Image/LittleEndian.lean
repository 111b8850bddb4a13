/-! # Little-endian words

Texels are stored as bytes and compared as 32-bit words, the lowest byte first.
-/

namespace ComputeShader.LittleEndian

/-- The four bytes of a word. -/
def bytes (w : UInt32) : List UInt8 :=
  [w.toUInt8, (w >>> 8).toUInt8, (w >>> 16).toUInt8, (w >>> 24).toUInt8]

/-- The word of four bytes. -/
def word (a b c d : UInt8) : UInt32 :=
  a.toUInt32 ||| (b.toUInt32 <<< 8) ||| (c.toUInt32 <<< 16) ||| (d.toUInt32 <<< 24)

/-- The words of a run of bytes; up to three bytes left over at the end make no word. -/
def words : List UInt8 → List UInt32
  | a :: b :: c :: d :: rest => word a b c d :: words rest
  | _ => []

/-! ## Round trips -/

@[simp] theorem length_bytes (w : UInt32) : (bytes w).length = 4 := rfl

theorem word_bytes (w : UInt32) :
    word w.toUInt8 (w >>> 8).toUInt8 (w >>> 16).toUInt8 (w >>> 24).toUInt8 = w := by
  apply UInt32.toBitVec_inj.1
  ext i bound
  simp [word, -UInt32.toUInt32_toUInt8]
  grind

theorem bytes_word (a b c d : UInt8) : bytes (word a b c d) = [a, b, c, d] := by
  simp only [bytes, word, List.cons.injEq, and_true]
  refine ⟨?_, ?_, ?_, ?_⟩ <;> apply UInt8.toBitVec_inj.1 <;> ext i bound <;> simp <;> grind

@[simp] theorem words_flatMap_bytes (ws : List UInt32) : words (ws.flatMap bytes) = ws := by
  induction ws with
  | nil => rfl
  | cons w rest ih =>
    rw [List.flatMap_cons, bytes]
    simp only [List.cons_append, List.nil_append, words, word_bytes, ih]

/-- A whole number of words is given back byte by byte. -/
theorem flatMap_bytes_words {bs : List UInt8} (whole : bs.length % 4 = 0) :
    (words bs).flatMap bytes = bs := by
  fun_induction words bs with
  | case1 a b c d rest ih =>
    rw [List.flatMap_cons, bytes_word, ih (by simpa [Nat.add_assoc] using whole)]
    rfl
  | case2 bs short =>
    match bs, short with
    | [], _ => rfl
    | [_], _ | [_, _], _ | [_, _, _], _ => simp at whole
    | a :: b :: c :: d :: rest, short => exact (short a b c d rest rfl).elim

theorem length_flatMap_bytes (ws : List UInt32) : (ws.flatMap bytes).length = 4 * ws.length := by
  induction ws with
  | nil => rfl
  | cons w rest ih => rw [List.flatMap_cons, List.length_append, ih, length_bytes]; simp; omega

theorem length_words (bs : List UInt8) : (words bs).length = bs.length / 4 := by
  fun_induction words bs with
  | case1 a b c d rest ih => simp only [List.length_cons, ih]; omega
  | case2 bs short =>
    match bs, short with
    | [], _ | [_], _ | [_, _], _ | [_, _, _], _ => simp
    | a :: b :: c :: d :: rest, short => exact (short a b c d rest rfl).elim

end ComputeShader.LittleEndian
