import ContentServer.Codec

/-!
# Codecs that store bytes as they are

Each of the three content codings has a form for data that is not compressed: blocks that hold
bytes as they are, behind a short header.  Every decoder of the coding reads them.  The codecs of
this module write and read that form.

* In `deflate` a block has a byte that tells whether it is the last one, its length and the
  complement of its length in two bytes each, and then the bytes.
* `gzip` puts a header of ten bytes in front of that and a checksum and the length behind it.
* `br` starts with a byte for the window size, gives each block a header of three bytes and ends
  with a byte.

Numbers are written with their lowest byte first.  `deflate`, `gzip` and `br` are codecs, so each
reads back what it writes.
-/

namespace ContentServer.Codec

/-! ## Numbers, lowest byte first -/

/-- The `k` lowest bytes of a number. -/
def little : Nat → Nat → Bytes
  | 0, _ => []
  | k + 1, n => UInt8.ofNat n :: little k (n / 256)

/-- The number that bytes denote. -/
def ofLittle : Bytes → Nat
  | [] => 0
  | b :: bs => b.toNat + 256 * ofLittle bs

@[simp] theorem length_little (k n : Nat) : (little k n).length = k := by
  induction k generalizing n with
  | zero => rfl
  | succ k ih => simp [little, ih]

theorem ofLittle_little (k n : Nat) (h : n < Nat.pow 256 k) : ofLittle (little k n) = n := by
  induction k generalizing n with
  | zero => rw [Nat.lt_one_iff.mp h]; rfl
  | succ k ih =>
    have hd : n / 256 < Nat.pow 256 k := by
      rw [Nat.div_lt_iff_lt_mul (by decide)]
      exact h
    simp only [little, ofLittle, UInt8.toNat_ofNat', ih _ hd]
    omega

/-- The number in the first `k` bytes, and the bytes after them. -/
def takeLittle? (k : Nat) (bs : Bytes) : Option (Nat × Bytes) :=
  if bs.length < k then none else some (ofLittle (bs.take k), bs.drop k)

theorem takeLittle?_little (k n : Nat) (h : n < Nat.pow 256 k) (rest : Bytes) :
    takeLittle? k (little k n ++ rest) = some (n, rest) := by
  have hl : ¬ (little k n ++ rest).length < k := by simp
  rw [takeLittle?, if_neg hl, List.take_left' (length_little k n),
    List.drop_left' (length_little k n), ofLittle_little k n h]

/-! ## Data in blocks -/

/-- A form of blocks: how one is written before its bytes, and how that is read.  The flag tells
whether the block is the last one. -/
structure Blocks where
  /-- The most bytes that a block holds. -/
  most : Nat
  /-- What stands before a block of a given length. -/
  header : Bool → Nat → Bytes
  /-- The flag and the length that a header states, and what follows it. -/
  header? : Bytes → Option ((Bool × Nat) × Bytes)
  /-- A block is not empty when it is full. -/
  most_pos : 0 < most
  /-- A header is read back. -/
  header?_header : ∀ (last : Bool) (n : Nat) (rest : Bytes), n ≤ most →
    header? (header last n ++ rest) = some ((last, n), rest)
  /-- A header takes at least one byte. -/
  header?_shorter : ∀ {bs : Bytes} {x : Bool × Nat} {rest : Bytes},
    header? bs = some (x, rest) → rest.length < bs.length

namespace Blocks

/-- The bytes in blocks, all full but the last one. -/
def write (f : Blocks) (data : Bytes) : Bytes :=
  if data.length ≤ f.most then f.header true data.length ++ data
  else f.header false f.most ++ (data.take f.most ++ write f (data.drop f.most))
termination_by data.length
decreasing_by
  rw [List.length_drop]
  have := f.most_pos
  omega

/-- The bytes that a row of blocks holds, and what follows the last block. -/
def read? (f : Blocks) (bs : Bytes) : Option (Bytes × Bytes) :=
  match _h : f.header? bs with
  | none => none
  | some ((last, n), rest) =>
    if rest.length < n then none
    else if last then some (rest.take n, rest.drop n)
    else (read? f (rest.drop n)).map fun (data, tail) => (rest.take n ++ data, tail)
termination_by bs.length
decreasing_by
  rw [List.length_drop]
  have := f.header?_shorter _h
  omega

/-- What is written in blocks is read back, whatever follows. -/
theorem read?_write (f : Blocks) (data rest : Bytes) :
    f.read? (f.write data ++ rest) = some (data, rest) := by
  induction h : data.length using Nat.strongRecOn generalizing data with
  | _ m ih =>
    have hp := f.most_pos
    by_cases hm : data.length ≤ f.most
    · rw [write, if_pos hm, List.append_assoc, read?, f.header?_header _ _ _ hm]
      simp
    · have hlen : (data.take f.most).length = f.most := by
        rw [List.length_take]; omega
      rw [write, if_neg hm, List.append_assoc, read?,
        f.header?_header _ _ _ (Nat.le_refl _)]
      have hr := ih (data.drop f.most).length (by rw [List.length_drop]; omega)
        (data.drop f.most) rfl
      simp only [List.append_assoc, List.length_append, hlen, Bool.false_eq_true, if_false]
      rw [if_neg (by omega), List.take_left' hlen, List.drop_left' hlen, hr]
      simp

end Blocks

/-! ## Deflate -/

/-- Blocks of `deflate` that are not compressed. -/
def deflateBlocks : Blocks where
  most := 65535
  header last n :=
    (if last then 1 else 0) :: (little 2 n ++ little 2 (65535 - n))
  header? bs :=
    match bs with
    | [] => none
    | flag :: rest =>
      if flag = 0 ∨ flag = 1 then
        match takeLittle? 2 rest with
        | none => none
        | some (n, rest) =>
          match takeLittle? 2 rest with
          | none => none
          | some (m, rest) => if n + m = 65535 then some ((flag == 1, n), rest) else none
      else none
  most_pos := by decide
  header?_header last n rest h := by
    have h1 : n < Nat.pow 256 2 := by show n < 65536; omega
    have h2 : 65535 - n < Nat.pow 256 2 := by show 65535 - n < 65536; omega
    have h3 : n + (65535 - n) = 65535 := by omega
    cases last <;>
      simp [List.append_assoc, takeLittle?_little _ _ h1, takeLittle?_little _ _ h2, h3]
  header?_shorter := by
    intro bs x rest h
    split at h
    · cases h
    · split at h
      · split at h
        · cases h
        · next n r1 h1 =>
          split at h
          · cases h
          · next m r2 h2 =>
            split at h
            · simp only [Option.some.injEq, Prod.mk.injEq] at h
              obtain ⟨_, rfl⟩ := h
              simp only [takeLittle?] at h1 h2
              split at h1
              · cases h1
              · split at h2
                · cases h2
                · simp only [Option.some.injEq, Prod.mk.injEq] at h1 h2
                  rw [← h2.2, ← h1.2]
                  simp only [List.length_drop, List.length_cons]
                  omega
            · cases h
      · cases h

/-- The coding `deflate`: blocks and nothing after them. -/
def deflate : Codec where
  encode b := some (deflateBlocks.write b)
  decode e :=
    match deflateBlocks.read? e with
    | some (b, []) => some b
    | _ => none
  decode_encode := by
    intro b e h
    simp only [Option.some.injEq] at h
    have := deflateBlocks.read?_write b []
    rw [List.append_nil] at this
    rw [← h, this]

/-! ## Gzip -/

/-- The checksum after one more bit. -/
def crcBit (c : UInt32) : UInt32 :=
  if c &&& 1 = 1 then (c >>> 1) ^^^ 0xEDB88320 else c >>> 1

/-- The checksum after one more byte. -/
def crcByte (c : UInt32) (b : UInt8) : UInt32 :=
  (List.range 8).foldl (fun c _ => crcBit c) (c ^^^ b.toUInt32)

/-- The checksum of bytes. -/
def crc (bs : Bytes) : UInt32 := (bs.foldl crcByte 0xFFFFFFFF) ^^^ 0xFFFFFFFF

/-- What stands before the blocks: the mark of the coding, the method, and no name, time or
system. -/
def gzipHeader : Bytes := [0x1F, 0x8B, 8, 0, 0, 0, 0, 0, 0, 0xFF]

/-- What stands after the blocks: the checksum and the length, modulo 2³². -/
def gzipTrailer (b : Bytes) : Bytes := little 4 (crc b).toNat ++ little 4 (b.length % UInt32.size)

/-- The coding `gzip`: a header, the blocks of `deflate` and a trailer that must fit the bytes. -/
def gzip : Codec where
  encode b := some (gzipHeader ++ (deflateBlocks.write b ++ gzipTrailer b))
  decode e :=
    if gzipHeader.isPrefixOf e then
      match deflateBlocks.read? (e.drop gzipHeader.length) with
      | some (b, trailer) => if trailer = gzipTrailer b then some b else none
      | none => none
    else none
  decode_encode := by
    intro b e h
    simp only [Option.some.injEq] at h
    subst h
    rw [if_pos (List.isPrefixOf_iff_prefix.mpr (List.prefix_append _ _)), List.drop_left,
      deflateBlocks.read?_write]
    simp

/-! ## Brotli -/

/-- Blocks of `br` that are not compressed.  A header has a bit for the last block, which a block
with bytes never is, two bits for the width of the length, sixteen for the length less one and one
that says that the bytes are not compressed.  The byte `3` is the last block, which is empty. -/
def brotliBlock (n : Nat) : Bytes := little 3 ((n - 1) * 8 + 0x80000)

/-- The bytes in blocks, followed by the empty last block. -/
def brotliBody (data : Bytes) : Bytes :=
  if _h : data = [] then [3]
  else
    let part := data.take 65536
    brotliBlock part.length ++ (part ++ brotliBody (data.drop 65536))
termination_by data.length
decreasing_by
  have := List.length_pos_iff.mpr _h
  rw [List.length_drop]
  omega

/-- The bytes that a row of blocks holds, if nothing follows the last block. -/
def readBrotliBody? (bs : Bytes) : Option Bytes :=
  if bs = [3] then some []
  else if _h : bs.length < 3 then none
  else
    let word := ofLittle (bs.take 3)
    let n := (word - 0x80000) / 8 + 1
    let rest := bs.drop 3
    if word < 0x80000 || word % 8 != 0 || n > 65536 || rest.length < n then none
    else (readBrotliBody? (rest.drop n)).map (rest.take n ++ ·)
termination_by bs.length
decreasing_by
  simp only [List.length_drop]
  omega

theorem readBrotliBody?_brotliBody (data : Bytes) :
    readBrotliBody? (brotliBody data) = some data := by
  induction h : data.length using Nat.strongRecOn generalizing data with
  | _ m ih =>
    by_cases hd : data = []
    · subst hd
      rw [brotliBody, dif_pos rfl, readBrotliBody?, if_pos rfl]
    · have hpos := List.length_pos_iff.mpr hd
      have hr := ih (data.drop 65536).length (by rw [List.length_drop]; omega)
        (data.drop 65536) rfl
      rw [brotliBody, dif_neg hd]
      generalize hp : data.take 65536 = part
      have hplen : part.length = min 65536 data.length := by rw [← hp, List.length_take]
      have hw : (part.length - 1) * 8 + 0x80000 < Nat.pow 256 3 := by
        show (part.length - 1) * 8 + 0x80000 < 0x1000000
        omega
      have hb : (brotliBlock part.length).length = 3 := length_little 3 _
      dsimp only
      rw [readBrotliBody?, if_neg, dif_neg]
      · rw [List.take_left' hb, List.drop_left' hb, brotliBlock, ofLittle_little _ _ hw]
        have h1 : ((part.length - 1) * 8 + 0x80000 - 0x80000) / 8 + 1 = part.length := by omega
        simp only [h1]
        rw [if_neg, List.drop_left, List.take_left, hr]
        · simp only [Option.map_some, Option.some.injEq]
          rw [← hp, List.take_append_drop]
        · simp only [Bool.or_eq_true, decide_eq_true_eq, bne_iff_ne, ne_eq, List.length_append]
          omega
      · simp only [List.length_append, hb]
        omega
      · intro he
        have := congrArg List.length he
        simp only [List.length_append, hb, List.length_cons, List.length_nil] at this
        omega

/-- The coding `br`: a byte for the window size with an empty block in it, and then the blocks. -/
def brotli : Codec where
  encode b := some (0x0C :: brotliBody b)
  decode e :=
    match e with
    | [] => none
    | first :: rest => if first = 0x0C then readBrotliBody? rest else none
  decode_encode := by
    intro b e h
    simp only [Option.some.injEq] at h
    subst h
    simp [readBrotliBody?_brotliBody]

/-- The codecs of this module. -/
def stored : Codecs
  | .gzip => gzip
  | .deflate => deflate
  | .br => brotli

/-- The checksum of the nine digits is the known one. -/
example : crc (Bytes.ofText "123456789") = 0xCBF43926 := by decide +kernel

end ContentServer.Codec
