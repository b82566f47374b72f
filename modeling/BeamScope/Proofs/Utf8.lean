import BeamScope.Text.Utf8

/-!
# Text survives UTF-8

The bytes of a text are cut into exactly its characters again, so strict reading returns it. The
lead byte decides how many bytes belong together; the ranges of the second byte that keep out
overlong forms, surrogates and numbers past the last character keep out no character. Nor do they
let in anything else: what strict reading accepts is the bytes of the text that it returns.
-/

namespace BeamScope.Text.Utf8

theorem isContinuation_iff (b : UInt8) :
    isContinuation b = true ↔ 0x80 ≤ b.toNat ∧ b.toNat ≤ 0xbf := by
  simp only [isContinuation, Bool.and_eq_true, decide_eq_true_eq]
  exact Iff.rfl

/-! ### Lead bytes -/

theorem leadClass_two {b : UInt8} (lo : 0xc2 ≤ b.toNat) (hi : b.toNat ≤ 0xdf) :
    leadClass b = some (0x80, 0xbf, 2) := by
  have h : (0xc2 ≤ b && b ≤ 0xdf) = true := by
    simp only [Bool.and_eq_true, decide_eq_true_eq]
    exact ⟨lo, hi⟩
  simp only [leadClass, h, if_true]

theorem leadClass_three {b b₂ : UInt8} (lo : 0xe0 ≤ b.toNat) (hi : b.toNat ≤ 0xef)
    (lo₂ : 0x80 ≤ b₂.toNat) (hi₂ : b₂.toNat ≤ 0xbf) (overlong : b.toNat = 0xe0 → 0xa0 ≤ b₂.toNat)
    (surrogate : b.toNat = 0xed → b₂.toNat ≤ 0x9f) :
    ∃ least greatest, leadClass b = some (least, greatest, 3) ∧
      (least ≤ b₂ && b₂ ≤ greatest) = true := by
  simp only [leadClass, Bool.and_eq_true, decide_eq_true_eq, beq_iff_eq, UInt8.le_iff_toNat_le,
    ← UInt8.toNat_inj, UInt8.reduceToNat]
  rw [if_neg (by omega)]
  split
  · exact ⟨_, _, rfl, overlong ‹_›, hi₂⟩
  · split
    · exact ⟨_, _, rfl, lo₂, surrogate ‹_›⟩
    · rw [if_pos (by omega)]
      exact ⟨_, _, rfl, lo₂, hi₂⟩

theorem leadClass_four {b b₂ : UInt8} (lo : 0xf0 ≤ b.toNat) (hi : b.toNat ≤ 0xf4)
    (lo₂ : 0x80 ≤ b₂.toNat) (hi₂ : b₂.toNat ≤ 0xbf) (overlong : b.toNat = 0xf0 → 0x90 ≤ b₂.toNat)
    (last : b.toNat = 0xf4 → b₂.toNat ≤ 0x8f) :
    ∃ least greatest, leadClass b = some (least, greatest, 4) ∧
      (least ≤ b₂ && b₂ ≤ greatest) = true := by
  simp only [leadClass, Bool.and_eq_true, decide_eq_true_eq, beq_iff_eq, UInt8.le_iff_toNat_le,
    ← UInt8.toNat_inj, UInt8.reduceToNat]
  rw [if_neg (by omega), if_neg (by omega), if_neg (by omega), if_neg (by omega)]
  split
  · exact ⟨_, _, rfl, overlong ‹_›, hi₂⟩
  · split
    · exact ⟨_, _, rfl, lo₂, hi₂⟩
    · rw [if_pos (by omega)]
      exact ⟨_, _, rfl, lo₂, last (by omega)⟩

/-! ### Characters -/

theorem not_lt_ascii {b : UInt8} (h : 0x80 ≤ b.toNat) : ¬b < 0x80 := Nat.not_lt.mpr h

theorem piece_two {b b₂ : UInt8} (rest : List UInt8) (lo : 0xc2 ≤ b.toNat) (hi : b.toNat ≤ 0xdf)
    (lo₂ : 0x80 ≤ b₂.toNat) (hi₂ : b₂.toNat ≤ 0xbf) :
    piece b (b₂ :: rest) = .char (Char.ofNat (b.toNat % 32 * 64 + six b₂)) 2 := by
  have h₂ : (0x80 ≤ b₂ && b₂ ≤ 0xbf) = true := (isContinuation_iff b₂).mpr ⟨lo₂, hi₂⟩
  simp only [piece, if_neg (not_lt_ascii (show 0x80 ≤ b.toNat by omega)), leadClass_two lo hi, h₂,
    Bool.not_true, Bool.false_eq_true, if_false, if_true]

theorem piece_three {b b₂ b₃ : UInt8} (rest : List UInt8) (lo : 0xe0 ≤ b.toNat)
    (hi : b.toNat ≤ 0xef) (lo₂ : 0x80 ≤ b₂.toNat) (hi₂ : b₂.toNat ≤ 0xbf)
    (overlong : b.toNat = 0xe0 → 0xa0 ≤ b₂.toNat) (surrogate : b.toNat = 0xed → b₂.toNat ≤ 0x9f)
    (lo₃ : 0x80 ≤ b₃.toNat) (hi₃ : b₃.toNat ≤ 0xbf) :
    piece b (b₂ :: b₃ :: rest) =
      .char (Char.ofNat ((b.toNat % 16 * 64 + six b₂) * 64 + six b₃)) 3 := by
  obtain ⟨least, greatest, hlead, h₂⟩ := leadClass_three lo hi lo₂ hi₂ overlong surrogate
  have h₃ := (isContinuation_iff b₃).mpr ⟨lo₃, hi₃⟩
  have hne : ¬3 = 2 := by decide
  simp only [piece, if_neg (not_lt_ascii (show 0x80 ≤ b.toNat by omega)), hlead, h₂, h₃,
    Bool.not_true, Bool.false_eq_true, if_false, if_neg hne, if_true]

theorem piece_four {b b₂ b₃ b₄ : UInt8} (rest : List UInt8) (lo : 0xf0 ≤ b.toNat)
    (hi : b.toNat ≤ 0xf4) (lo₂ : 0x80 ≤ b₂.toNat) (hi₂ : b₂.toNat ≤ 0xbf)
    (overlong : b.toNat = 0xf0 → 0x90 ≤ b₂.toNat) (last : b.toNat = 0xf4 → b₂.toNat ≤ 0x8f)
    (lo₃ : 0x80 ≤ b₃.toNat) (hi₃ : b₃.toNat ≤ 0xbf) (lo₄ : 0x80 ≤ b₄.toNat)
    (hi₄ : b₄.toNat ≤ 0xbf) :
    piece b (b₂ :: b₃ :: b₄ :: rest) =
      .char (Char.ofNat (((b.toNat % 8 * 64 + six b₂) * 64 + six b₃) * 64 + six b₄)) 4 := by
  obtain ⟨least, greatest, hlead, h₂⟩ := leadClass_four lo hi lo₂ hi₂ overlong last
  have h₃ := (isContinuation_iff b₃).mpr ⟨lo₃, hi₃⟩
  have h₄ := (isContinuation_iff b₄).mpr ⟨lo₄, hi₄⟩
  have hne2 : ¬4 = 2 := by decide
  have hne3 : ¬4 = 3 := by decide
  simp only [piece, if_neg (not_lt_ascii (show 0x80 ≤ b.toNat by omega)), hlead, h₂, h₃, h₄,
    Bool.not_true, Bool.false_eq_true, if_false, if_neg hne2, if_neg hne3]

theorem toNat_bounds (c : Char) :
    c.toNat < 0xd800 ∨ 0xdfff < c.toNat ∧ c.toNat < 0x110000 := c.valid

/-- The bytes of a character are one piece, wherever they stand. -/
theorem piece_encodeChar (c : Char) (rest : List UInt8) :
    ∃ b bs, encodeChar c = b :: bs ∧ piece b (bs ++ rest) = .char c (bs.length + 1) := by
  have hc := toNat_bounds c
  have hof : Char.ofNat c.toNat = c := Char.ofNat_toNat c
  unfold encodeChar String.utf8EncodeChar
  rw [show c.val.toNat = c.toNat from rfl]
  generalize c.toNat = v at hc hof ⊢
  by_cases h1 : v ≤ 0x7f
  · refine ⟨_, _, by rw [if_pos h1], ?_⟩
    have hb := UInt8.toNat_ofNat_of_lt' (show v < 256 by omega)
    have hlt : UInt8.ofNat v < 0x80 := by
      rw [UInt8.lt_iff_toNat_lt, hb]
      exact Nat.lt_succ_of_le h1
    simp only [piece, if_pos hlt, hb, hof, List.length_nil]
  by_cases h2 : v ≤ 0x7ff
  · refine ⟨_, _, by rw [if_neg h1, if_pos h2], ?_⟩
    have hb := UInt8.toNat_ofNat_of_lt' (show v / 64 % 0x20 + 0xc0 < 256 by omega)
    have hb₂ := UInt8.toNat_ofNat_of_lt' (show v % 0x40 + 0x80 < 256 by omega)
    have hv : (v / 64 % 0x20 + 0xc0) % 32 * 64 + (v % 0x40 + 0x80) % 64 = v := by omega
    rw [List.cons_append, piece_two _ (by rw [hb]; omega) (by rw [hb]; omega)
      (by rw [hb₂]; omega) (by rw [hb₂]; omega)]
    simp only [six, hb, hb₂, hv, hof, List.length_cons, List.length_nil]
  by_cases h3 : v ≤ 0xffff
  · refine ⟨_, _, by rw [if_neg h1, if_neg h2, if_pos h3], ?_⟩
    have hv : ((v / 4096 % 0x10 + 0xe0) % 16 * 64 + (v / 64 % 0x40 + 0x80) % 64) * 64 +
        (v % 0x40 + 0x80) % 64 = v := by omega
    have hb := UInt8.toNat_ofNat_of_lt' (show v / 4096 % 0x10 + 0xe0 < 256 by omega)
    have hb₂ := UInt8.toNat_ofNat_of_lt' (show v / 64 % 0x40 + 0x80 < 256 by omega)
    have hb₃ := UInt8.toNat_ofNat_of_lt' (show v % 0x40 + 0x80 < 256 by omega)
    simp only [List.cons_append]
    rw [piece_three _ (by rw [hb]; omega) (by rw [hb]; omega) (by rw [hb₂]; omega)
      (by rw [hb₂]; omega) (by rw [hb, hb₂]; omega) (by rw [hb, hb₂]; omega) (by rw [hb₃]; omega)
      (by rw [hb₃]; omega)]
    simp only [six, hb, hb₂, hb₃, hv, hof, List.length_cons, List.length_nil]
  · refine ⟨_, _, by rw [if_neg h1, if_neg h2, if_neg h3], ?_⟩
    have hv : (((v / 262144 % 0x08 + 0xf0) % 8 * 64 + (v / 4096 % 0x40 + 0x80) % 64) * 64 +
        (v / 64 % 0x40 + 0x80) % 64) * 64 + (v % 0x40 + 0x80) % 64 = v := by omega
    have hb := UInt8.toNat_ofNat_of_lt' (show v / 262144 % 0x08 + 0xf0 < 256 by omega)
    have hb₂ := UInt8.toNat_ofNat_of_lt' (show v / 4096 % 0x40 + 0x80 < 256 by omega)
    have hb₃ := UInt8.toNat_ofNat_of_lt' (show v / 64 % 0x40 + 0x80 < 256 by omega)
    have hb₄ := UInt8.toNat_ofNat_of_lt' (show v % 0x40 + 0x80 < 256 by omega)
    simp only [List.cons_append]
    rw [piece_four _ (by rw [hb]; omega) (by rw [hb]; omega) (by rw [hb₂]; omega)
      (by rw [hb₂]; omega) (by rw [hb, hb₂]; omega) (by rw [hb, hb₂]; omega) (by rw [hb₃]; omega)
      (by rw [hb₃]; omega) (by rw [hb₄]; omega) (by rw [hb₄]; omega)]
    simp only [six, hb, hb₂, hb₃, hb₄, hv, hof, List.length_cons, List.length_nil]

/-! ### Texts -/

theorem piecesFrom_eq_drop (skip : Nat) (bs : List UInt8) :
    piecesFrom skip bs = pieces (bs.drop skip) := by
  induction skip generalizing bs with
  | zero => rfl
  | succ skip ih =>
    cases bs with
    | nil => rfl
    | cons b bs => exact ih bs

theorem piecesFrom_append (bs rest : List UInt8) :
    piecesFrom bs.length (bs ++ rest) = piecesFrom 0 rest := by
  rw [piecesFrom_eq_drop, List.drop_left]
  rfl

theorem pieces_encode (cs : List Char) :
    (pieces (cs.flatMap encodeChar)).mapM Piece.char? = some cs := by
  induction cs with
  | nil => rfl
  | cons c cs ih =>
    obtain ⟨b, bs, henc, hpiece⟩ := piece_encodeChar c (cs.flatMap encodeChar)
    have hp : pieces (encodeChar c ++ cs.flatMap encodeChar) =
        .char c (bs.length + 1) :: pieces (cs.flatMap encodeChar) := by
      rw [henc, List.cons_append, pieces, piecesFrom, hpiece]
      simp only [Nat.add_sub_cancel, piecesFrom_append]
      rfl
    rw [List.flatMap_cons, hp, List.mapM_cons, ih]
    rfl

theorem decode?_encode (s : String) : decode? (encode s) = some s := by
  rw [decode?, encode, pieces_encode, Option.map_some, String.ofList_toList]

/-! ### What is read was written -/

section Encode

variable {v : Nat}

theorem toNat_ofNat_of_valid (h : v < 0xd800 ∨ 0xdfff < v ∧ v < 0x110000) :
    (Char.ofNat v).toNat = v := by
  rw [Char.ofNat, dif_pos h]
  exact UInt32.toNat_ofNatLT ..

theorem encodeChar_one (h : v ≤ 0x7f) : encodeChar (Char.ofNat v) = [UInt8.ofNat v] := by
  have hv : (Char.ofNat v).val.toNat = v := toNat_ofNat_of_valid (.inl (by omega))
  rw [encodeChar, String.utf8EncodeChar, hv, if_pos h]

theorem encodeChar_two (lo : 0x7f < v) (hi : v ≤ 0x7ff) : encodeChar (Char.ofNat v) =
    [UInt8.ofNat (v / 64 % 32 + 192), UInt8.ofNat (v % 64 + 128)] := by
  have hv : (Char.ofNat v).val.toNat = v := toNat_ofNat_of_valid (.inl (by omega))
  rw [encodeChar, String.utf8EncodeChar, hv, if_neg (Nat.not_le.mpr lo), if_pos hi]

theorem encodeChar_three (lo : 0x7ff < v) (hi : v ≤ 0xffff) (h : v < 0xd800 ∨ 0xdfff < v) :
    encodeChar (Char.ofNat v) = [UInt8.ofNat (v / 4096 % 16 + 224),
      UInt8.ofNat (v / 64 % 64 + 128), UInt8.ofNat (v % 64 + 128)] := by
  have hv : (Char.ofNat v).val.toNat = v := toNat_ofNat_of_valid (by omega)
  rw [encodeChar, String.utf8EncodeChar, hv, if_neg (by omega), if_neg (by omega), if_pos hi]

theorem encodeChar_four (lo : 0xffff < v) (hi : v < 0x110000) : encodeChar (Char.ofNat v) =
    [UInt8.ofNat (v / 262144 % 8 + 240), UInt8.ofNat (v / 4096 % 64 + 128),
      UInt8.ofNat (v / 64 % 64 + 128), UInt8.ofNat (v % 64 + 128)] := by
  have hv : (Char.ofNat v).val.toNat = v := toNat_ofNat_of_valid (by omega)
  rw [encodeChar, String.utf8EncodeChar, hv, if_neg (by omega), if_neg (by omega),
    if_neg (by omega)]

end Encode

theorem ofNat_eq_of_toNat {b : UInt8} {n : Nat} (h : n = b.toNat) : UInt8.ofNat n = b := by
  rw [h, UInt8.ofNat_toNat]

/-- Which numbers a lead byte and the byte behind it allow, by the size of the character. -/
theorem leadClass_eq_some {b b₂ least greatest : UInt8} {size : Nat}
    (h : leadClass b = some (least, greatest, size)) (lo₂ : least ≤ b₂) (hi₂ : b₂ ≤ greatest) :
    0x80 ≤ b₂.toNat ∧ b₂.toNat ≤ 0xbf ∧
      (size = 2 ∧ 0xc2 ≤ b.toNat ∧ b.toNat ≤ 0xdf ∨
       size = 3 ∧ 0xe0 ≤ b.toNat ∧ b.toNat ≤ 0xef ∧ (b.toNat = 0xe0 → 0xa0 ≤ b₂.toNat) ∧
         (b.toNat = 0xed → b₂.toNat ≤ 0x9f) ∨
       size = 4 ∧ 0xf0 ≤ b.toNat ∧ b.toNat ≤ 0xf4 ∧ (b.toNat = 0xf0 → 0x90 ≤ b₂.toNat) ∧
         (b.toNat = 0xf4 → b₂.toNat ≤ 0x8f)) := by
  simp only [leadClass, Bool.and_eq_true, decide_eq_true_eq, beq_iff_eq, UInt8.le_iff_toNat_le,
    ← UInt8.toNat_inj, UInt8.reduceToNat] at h
  rw [UInt8.le_iff_toNat_le] at lo₂ hi₂
  repeat' split at h
  all_goals
    cases h
    try simp only [UInt8.reduceToNat] at lo₂ hi₂
    try omega

section Bytes

variable {b b₂ b₃ b₄ : UInt8}

theorem encodeChar_of_two (lo : 0xc2 ≤ b.toNat) (hi : b.toNat ≤ 0xdf) (lo₂ : 0x80 ≤ b₂.toNat)
    (hi₂ : b₂.toNat ≤ 0xbf) :
    encodeChar (Char.ofNat (b.toNat % 32 * 64 + six b₂)) = [b, b₂] := by
  unfold six
  rw [encodeChar_two (by omega) (by omega), ofNat_eq_of_toNat (b := b) (by omega),
    ofNat_eq_of_toNat (b := b₂) (by omega)]

theorem encodeChar_of_three (lo : 0xe0 ≤ b.toNat) (hi : b.toNat ≤ 0xef) (lo₂ : 0x80 ≤ b₂.toNat)
    (hi₂ : b₂.toNat ≤ 0xbf) (overlong : b.toNat = 0xe0 → 0xa0 ≤ b₂.toNat)
    (surrogate : b.toNat = 0xed → b₂.toNat ≤ 0x9f) (h₃ : isContinuation b₃ = true) :
    encodeChar (Char.ofNat ((b.toNat % 16 * 64 + six b₂) * 64 + six b₃)) = [b, b₂, b₃] := by
  rw [isContinuation_iff] at h₃
  unfold six
  rw [encodeChar_three (by omega) (by omega) (by omega), ofNat_eq_of_toNat (b := b) (by omega),
    ofNat_eq_of_toNat (b := b₂) (by omega), ofNat_eq_of_toNat (b := b₃) (by omega)]

theorem encodeChar_of_four (lo : 0xf0 ≤ b.toNat) (hi : b.toNat ≤ 0xf4) (lo₂ : 0x80 ≤ b₂.toNat)
    (hi₂ : b₂.toNat ≤ 0xbf) (overlong : b.toNat = 0xf0 → 0x90 ≤ b₂.toNat)
    (last : b.toNat = 0xf4 → b₂.toNat ≤ 0x8f) (h₃ : isContinuation b₃ = true)
    (h₄ : isContinuation b₄ = true) :
    encodeChar (Char.ofNat (((b.toNat % 8 * 64 + six b₂) * 64 + six b₃) * 64 + six b₄)) =
      [b, b₂, b₃, b₄] := by
  rw [isContinuation_iff] at h₃ h₄
  unfold six
  rw [encodeChar_four (by omega) (by omega), ofNat_eq_of_toNat (b := b) (by omega),
    ofNat_eq_of_toNat (b := b₂) (by omega), ofNat_eq_of_toNat (b := b₃) (by omega),
    ofNat_eq_of_toNat (b := b₄) (by omega)]

end Bytes

/-- A character that is found is written with the bytes it was found in. -/
theorem encodeChar_of_piece {b : UInt8} {rest : List UInt8} {c : Char} {size : Nat}
    (h : piece b rest = .char c size) : encodeChar c = b :: rest.take (size - 1) := by
  unfold piece at h
  split at h
  next hone =>
    cases h
    have hb : b.toNat ≤ 0x7f := Nat.le_of_lt_succ hone
    rw [encodeChar_one hb, UInt8.ofNat_toNat]
    rfl
  next hone =>
    split at h
    · cases h
    next least greatest size' hlead =>
      cases rest with
      | nil => cases h
      | cons b₂ rest =>
        dsimp only at h
        split at h
        · cases h
        next hrange =>
          simp only [Bool.not_eq_true', Bool.not_eq_false, Bool.and_eq_true, decide_eq_true_eq]
            at hrange
          obtain ⟨lo₂, hi₂, ⟨rfl, lo, hi⟩ | ⟨rfl, lo, hi, overlong, surrogate⟩ |
            ⟨rfl, lo, hi, overlong, last⟩⟩ := leadClass_eq_some hlead hrange.1 hrange.2
          · cases h
            exact encodeChar_of_two lo hi lo₂ hi₂
          · rw [if_neg (by decide)] at h
            cases rest with
            | nil => cases h
            | cons b₃ rest =>
              dsimp only at h
              split at h
              · cases h
              next h₃ =>
                cases h
                exact encodeChar_of_three lo hi lo₂ hi₂ overlong surrogate (by simpa using h₃)
          · rw [if_neg (by decide)] at h
            cases rest with
            | nil => cases h
            | cons b₃ rest =>
              dsimp only at h
              split at h
              · cases h
              next h₃ =>
                rw [if_neg (by decide)] at h
                cases rest with
                | nil => cases h
                | cons b₄ rest =>
                  dsimp only at h
                  split at h
                  · cases h
                  next h₄ =>
                    cases h
                    exact encodeChar_of_four lo hi lo₂ hi₂ overlong last (by simpa using h₃)
                      (by simpa using h₄)

theorem flatMap_encodeChar_of_pieces {bs : List UInt8} {cs : List Char}
    (h : (pieces bs).mapM Piece.char? = some cs) : cs.flatMap encodeChar = bs := by
  -- A character takes some of the bytes behind the first with it, so the induction is on the length.
  induction hlen : bs.length using Nat.strongRecOn generalizing bs cs with
  | ind n ih =>
    cases bs with
    | nil =>
      cases h
      rfl
    | cons b rest =>
      rw [pieces, piecesFrom] at h
      cases hpiece : piece b rest with
      | bad size =>
        rw [hpiece] at h
        cases h
      | char c size =>
        rw [hpiece, List.mapM_cons, piecesFrom_eq_drop] at h
        obtain ⟨c', hc, h⟩ := Option.bind_eq_some_iff.mp h
        obtain ⟨more, hmore, h⟩ := Option.bind_eq_some_iff.mp h
        cases hc
        cases h
        have hlt : (rest.drop (size - 1)).length < n := by
          rw [← hlen, List.length_drop, List.length_cons]
          omega
        rw [List.flatMap_cons, encodeChar_of_piece hpiece, ih _ hlt hmore rfl, List.cons_append,
          List.take_append_drop]

theorem encode_of_decode? {bs : List UInt8} {s : String} (h : decode? bs = some s) :
    encode s = bs := by
  obtain ⟨cs, hcs, rfl⟩ := Option.map_eq_some_iff.mp h
  rw [encode, String.toList_ofList, flatMap_encodeChar_of_pieces hcs]

end BeamScope.Text.Utf8
