import Mathlib.Algebra.Group.Nat.Defs
import Mathlib.Tactic.SplitIfs
import Tilde.Text.Newline
import Tilde.Text.Utf8

/-!
The bytes of a text and the texts of bytes. Decoding is the inverse of encoding: the
decoder makes a text of some bytes exactly if they are the bytes of that text. A
character is a number to both. Its encoding cuts the number into a first part, which
goes with the first byte, and parts of six bits for the bytes that follow; the decoder
puts the parts together and is in the middle of a number whose last parts are owed.

The line ends of a text that has been decoded are then unified, two characters at a
time where two make one line end.
-/

namespace Tilde.Text.Utf8

/-- The bytes of a text. -/
def encode (text : List Char) : List UInt8 :=
  text.flatMap String.utf8EncodeChar

/-! ### The moves of the decoder -/

namespace Begun

/-- The characters of two, of three and of four bytes that a byte begins. -/
def ofTwo (byte : UInt8) : Begun :=
  ⟨byte, 1, 1, byte.toNat - 0xc0, 0x80, 0xbf⟩

@[inherit_doc ofTwo]
def ofThree (byte : UInt8) : Begun :=
  ⟨byte, 1, 2, byte.toNat - 0xe0, if byte.toNat = 0xe0 then 0xa0 else 0x80,
    if byte.toNat = 0xed then 0x9f else 0xbf⟩

@[inherit_doc ofTwo]
def ofFour (byte : UInt8) : Begun :=
  ⟨byte, 1, 3, byte.toNat - 0xf0, if byte.toNat = 0xf0 then 0x90 else 0x80,
    if byte.toNat = 0xf4 then 0x8f else 0xbf⟩

end Begun

/-- What the decoder makes of a byte between two characters. -/
inductive Begins (byte : UInt8) : Move → Prop
  | one (h : byte.toNat < 0x80) : Begins byte (.finish (Char.ofNat byte.toNat))
  | two (hlow : 0xc2 ≤ byte.toNat) (hhigh : byte.toNat < 0xe0) :
      Begins byte (.goOn (.within (.ofTwo byte)))
  | three (hlow : 0xe0 ≤ byte.toNat) (hhigh : byte.toNat < 0xf0) :
      Begins byte (.goOn (.within (.ofThree byte)))
  | four (hlow : 0xf0 ≤ byte.toNat) (hhigh : byte.toNat < 0xf5) :
      Begins byte (.goOn (.within (.ofFour byte)))
  | refused (h : (0x80 ≤ byte.toNat ∧ byte.toNat < 0xc2) ∨ 0xf5 ≤ byte.toNat) :
      Begins byte (.refuse .invalidStart)

theorem begins_begin (byte : UInt8) : Begins byte (begin byte) := by
  -- the bytes with a range of their own for the next byte are at the ends of a length,
  -- but for the one that begins the surrogates
  have hthree := @Begins.three byte
  have hfour := @Begins.four byte
  rw [Begun.ofThree] at hthree
  rw [Begun.ofFour] at hfour
  rw [begin]
  dsimp only
  split
  · exact .one ‹_›
  split
  · exact .refused (by omega)
  split
  · exact .two (by omega) ‹_›
  split
  · rename_i he0
    rw [he0] at hthree
    exact hthree (Nat.le_refl _) (by omega)
  split
  · rename_i hed
    rw [hed] at hthree
    exact hthree (by omega) (by omega)
  split
  · rw [if_neg ‹_›, if_neg ‹_›] at hthree
    exact hthree (by omega) ‹_›
  split
  · rename_i hf0
    rw [hf0] at hfour
    exact hfour (Nat.le_refl _) (by omega)
  split
  · rename_i hbelow
    rw [if_neg ‹_›, if_neg (Nat.ne_of_lt hbelow)] at hfour
    exact hfour (by omega) (by omega)
  split
  · rename_i hf4
    rw [hf4] at hfour
    exact hfour (by omega) (by omega)
  · exact .refused (by omega)

theorem Begins.unique {byte : UInt8} {first second : Move} (hfirst : Begins byte first)
    (hsecond : Begins byte second) : first = second := by
  cases hfirst <;> cases hsecond <;> first | rfl | omega

/-- The character of which one more byte has been read. -/
def Begun.next (begun : Begun) (byte : UInt8) : Begun :=
  ⟨begun.lead, begun.length + 1, begun.owed - 1, begun.value * 64 + (byte.toNat - 0x80),
    0x80, 0xbf⟩

def Begun.Admits (begun : Begun) (byte : UInt8) : Prop :=
  begun.least ≤ byte.toNat ∧ byte.toNat ≤ begun.greatest

theorem Begun.resume_eq (begun : Begun) (byte : UInt8) :
    (begun.Admits byte ∧ begun.resume byte =
      if begun.owed ≤ 1 then .finish (Char.ofNat (begun.next byte).value)
      else .goOn (.within (begun.next byte))) ∨
    (¬begun.Admits byte ∧ begun.resume byte = .refuse .invalidContinuation) := by
  by_cases hadmits : begun.Admits byte
  · have hrange : ¬(byte.toNat < begun.least ∨ begun.greatest < byte.toNat) := by
      rw [Admits] at hadmits
      omega
    exact .inl ⟨hadmits, if_neg hrange⟩
  · have hrange : byte.toNat < begun.least ∨ begun.greatest < byte.toNat := by
      rw [Admits] at hadmits
      omega
    exact .inr ⟨hadmits, if_pos hrange⟩

/-- A decoder that goes on has begun a character. -/
theorem Stage.exists_begun_of_move {stage next : Stage} {byte : UInt8}
    (h : stage.move byte = .goOn next) : ∃ begun, next = .within begun := by
  cases stage with
  | between =>
      have hbegins := begins_begin byte
      rw [show begin byte = .goOn next from h] at hbegins
      cases hbegins <;> exact ⟨_, rfl⟩
  | within begun =>
      rw [move] at h
      rcases begun.resume_eq byte with ⟨-, hresume⟩ | ⟨-, hresume⟩
      · rw [hresume] at h
        split at h <;> cases h
        exact ⟨_, rfl⟩
      · rw [hresume] at h
        cases h

/-! ### Reading one character -/

/-- From a stage on the decoder takes some bytes for the rest of a character. -/
inductive Stage.Reads : Stage → List UInt8 → Char → Prop
  | last {stage : Stage} {byte : UInt8} {c : Char} (hmove : stage.move byte = .finish c) :
      Reads stage [byte] c
  | more {stage next : Stage} {byte : UInt8} {bytes : List UInt8} {c : Char}
      (hmove : stage.move byte = .goOn next) (hrest : Reads next bytes c) :
      Reads stage (byte :: bytes) c

theorem Stage.Reads.decodeFrom {stage : Stage} {front : List UInt8} {c : Char}
    (h : stage.Reads front c) (position : Nat) (before : List Char) (rest : List UInt8) :
    decodeFrom position stage before (front ++ rest) =
      Utf8.decodeFrom (position + front.length) .between (c :: before) rest := by
  induction h generalizing position with
  | last hmove =>
      rw [List.singleton_append, Utf8.decodeFrom, hmove]
      rfl
  | more hmove _ ih =>
      rw [List.cons_append, Utf8.decodeFrom, hmove]
      simp only [ih, List.length_cons, Nat.add_assoc, Nat.add_comm 1]

/-- A decoder that makes a text of its bytes is done with them, or reads a character
off their front. -/
theorem decodeFrom_eq_ok {position : Nat} {stage : Stage} {before text : List Char}
    {bytes : List UInt8} (h : decodeFrom position stage before bytes = .ok text) :
    (stage = .between ∧ bytes = [] ∧ text = before.reverse) ∨
      ∃ c front rest, bytes = front ++ rest ∧ rest.length < bytes.length ∧
        stage.Reads front c ∧
        decodeFrom (position + front.length) .between (c :: before) rest = .ok text := by
  induction bytes generalizing position stage with
  | nil =>
      cases stage with
      | between => exact .inl ⟨rfl, rfl, (Except.ok.inj h).symm⟩
      | within begun => cases h
  | cons byte rest ih =>
      right
      rw [decodeFrom] at h
      split at h
      · -- the bytes cannot be over, now that a character has been begun
        rename_i next hmove
        obtain ⟨begun, rfl⟩ := Stage.exists_begun_of_move hmove
        rcases ih h with ⟨hstage, -⟩ | ⟨c, front, rest, rfl, hlength, hreads, hrest⟩
        · cases hstage
        · refine ⟨c, byte :: front, rest, rfl, Nat.lt_succ_of_lt hlength,
            .more hmove hreads, ?_⟩
          rwa [List.length_cons, Nat.add_comm front.length, ← Nat.add_assoc]
      · rename_i c hmove
        exact ⟨c, [byte], rest, rfl, Nat.lt_succ_self _, .last hmove, h⟩
      · cases h

theorem Stage.reads_cons_iff {stage : Stage} {byte : UInt8} {bytes : List UInt8} {c : Char} :
    stage.Reads (byte :: bytes) c ↔
      (stage.move byte = .finish c ∧ bytes = []) ∨
        ∃ next, stage.move byte = .goOn next ∧ next.Reads bytes c := by
  constructor
  · intro h
    cases h with
    | last hmove => exact .inl ⟨hmove, rfl⟩
    | more hmove hrest => exact .inr ⟨_, hmove, hrest⟩
  · rintro (⟨hmove, rfl⟩ | ⟨next, hmove, hrest⟩)
    · exact .last hmove
    · exact .more hmove hrest

theorem Begun.reads_cons_iff {begun : Begun} {byte : UInt8} {bytes : List UInt8} {c : Char} :
    (Stage.within begun).Reads (byte :: bytes) c ↔
      begun.Admits byte ∧
        if begun.owed ≤ 1 then bytes = [] ∧ c = Char.ofNat (begun.next byte).value
        else (Stage.within (begun.next byte)).Reads bytes c := by
  have hmove : (Stage.within begun).move byte = begun.resume byte := rfl
  rw [Stage.reads_cons_iff, hmove]
  rcases begun.resume_eq byte with ⟨hadmits, hresume⟩ | ⟨hadmits, hresume⟩
  · rw [hresume]
    by_cases howed : begun.owed ≤ 1
    · simp [hadmits, howed, and_comm, eq_comm]
    · simp [hadmits, howed]
  · simp [hresume, hadmits]

/-! ### The parts of a number -/

/-- The bytes for the last parts of a number, six bits for each. -/
def tails : Nat → Nat → List UInt8
  | 0, _ => []
  | k + 1, n => UInt8.ofNat (n / 64 ^ k % 64 + 128) :: tails k n

/-- A number goes on from what has been begun: its first part is the value so far,
and the byte for the next part is in the range for it. -/
structure Begun.Precedes (begun : Begun) (n : Nat) : Prop where
  value : n / 64 ^ begun.owed = begun.value
  least : begun.least ≤ n / 64 ^ (begun.owed - 1) % 64 + 128
  greatest : n / 64 ^ (begun.owed - 1) % 64 + 128 ≤ begun.greatest

/-- The range of the next byte is one of six bits. -/
structure Begun.Valid (begun : Begun) : Prop where
  owed : 0 < begun.owed
  least : 0x80 ≤ begun.least
  greatest : begun.greatest ≤ 0xbf

theorem toNat_ofNat_of_lt {n : Nat} (h : n < 256) : (UInt8.ofNat n).toNat = n := by
  simp [Nat.mod_eq_of_lt h]

/-- A number goes on with a byte that the decoder admits, and the value is then that of
one more part of it. -/
theorem Begun.precedes_iff {begun : Begun} (hvalid : begun.Valid) {n : Nat} {byte : UInt8} :
    begun.Precedes n ∧ byte = UInt8.ofNat (n / 64 ^ (begun.owed - 1) % 64 + 128) ↔
      begun.Admits byte ∧ n / 64 ^ (begun.owed - 1) = (begun.next byte).value := by
  obtain ⟨howed, hleast, hgreatest⟩ := hvalid
  have hpart : n / 64 ^ begun.owed = n / 64 ^ (begun.owed - 1) / 64 := by
    rw [Nat.div_div_eq_div_mul, ← Nat.pow_succ, Nat.succ_eq_add_one, Nat.sub_add_cancel howed]
  have hbyte : byte = UInt8.ofNat (n / 64 ^ (begun.owed - 1) % 64 + 128) ↔
      byte.toNat = n / 64 ^ (begun.owed - 1) % 64 + 128 := by
    rw [← UInt8.toNat_inj, toNat_ofNat_of_lt (by omega)]
  rw [hbyte, Admits, Begun.next]
  constructor
  · rintro ⟨⟨hvalue, hlow, hhigh⟩, hbyte⟩
    dsimp only
    omega
  · rintro ⟨⟨hlow, hhigh⟩, hvalue⟩
    dsimp only at hvalue
    refine ⟨⟨?_, ?_, ?_⟩, ?_⟩ <;> omega

theorem tails_of_pos {k : Nat} (hk : 0 < k) (n : Nat) :
    tails k n = UInt8.ofNat (n / 64 ^ (k - 1) % 64 + 128) :: tails (k - 1) n := by
  cases k with
  | zero => exact absurd hk (Nat.lt_irrefl 0)
  | succ k => rfl

theorem Begun.exists_precedes_iff {begun : Begun} (hvalid : begun.Valid) {byte : UInt8}
    {bytes : List UInt8} {c : Char} :
    (∃ n, begun.Precedes n ∧ byte :: bytes = tails begun.owed n ∧ c = Char.ofNat n) ↔
      begun.Admits byte ∧ ∃ n, n / 64 ^ (begun.owed - 1) = (begun.next byte).value ∧
        bytes = tails (begun.owed - 1) n ∧ c = Char.ofNat n := by
  simp only [tails_of_pos hvalid.owed, List.cons.injEq, ← exists_and_left]
  apply exists_congr
  intro n
  rw [← and_assoc (a := begun.Admits byte), ← precedes_iff hvalid]
  simp only [and_assoc]

theorem Begun.precedes_next_iff {begun : Begun} {byte : UInt8} {n : Nat} :
    (begun.next byte).Precedes n ↔ n / 64 ^ (begun.owed - 1) = (begun.next byte).value := by
  constructor
  · intro h
    exact h.value
  · intro hvalue
    refine ⟨hvalue, ?_, ?_⟩ <;> simp only [next] <;> omega

/-- What the decoder reads from within a character on is the rest of the bytes of a
number. -/
theorem Begun.reads_iff {begun : Begun} (hvalid : begun.Valid) {bytes : List UInt8}
    {c : Char} :
    (Stage.within begun).Reads bytes c ↔
      ∃ n, begun.Precedes n ∧ bytes = tails begun.owed n ∧ c = Char.ofNat n := by
  induction bytes generalizing begun with
  | nil =>
      simp only [tails_of_pos hvalid.owed, List.nil_eq, reduceCtorEq, false_and, and_false,
        exists_false, iff_false]
      nofun
  | cons byte bytes ih =>
      rw [exists_precedes_iff hvalid, reads_cons_iff]
      by_cases hlast : begun.owed ≤ 1
      · have howed : begun.owed = 1 := Nat.le_antisymm hlast hvalid.owed
        simp [howed, tails]
      · have hnext : (begun.next byte).Valid :=
          ⟨Nat.sub_pos_of_lt (Nat.lt_of_not_le hlast), Nat.le_refl _, Nat.le_refl _⟩
        rw [if_neg hlast, ih hnext]
        simp only [precedes_next_iff]
        rfl

/-! ### The first byte -/

namespace Begun

variable {byte : UInt8} {n : Nat}

theorem valid_ofTwo : (ofTwo byte).Valid :=
  ⟨Nat.zero_lt_one, Nat.le_refl _, Nat.le_refl _⟩

theorem valid_ofThree : (ofThree byte).Valid := by
  refine ⟨Nat.zero_lt_two, ?_, ?_⟩ <;> dsimp only [ofThree] <;> split <;> omega

theorem valid_ofFour : (ofFour byte).Valid := by
  refine ⟨Nat.zero_lt_succ 2, ?_, ?_⟩ <;> dsimp only [ofFour] <;> split <;> omega

theorem ofTwo_precedes_iff (hbyte : 0xc2 ≤ byte.toNat) :
    (ofTwo byte).Precedes n ↔ byte.toNat = n / 64 + 192 ∧ 127 < n := by
  constructor
  · rintro ⟨hvalue, hleast, hgreatest⟩
    dsimp only [ofTwo] at *
    omega
  · rintro ⟨hvalue, hlow⟩
    refine ⟨?_, ?_, ?_⟩ <;> dsimp only [ofTwo] <;> omega

/-- The range of the second byte keeps out what has a shorter form and the surrogates. -/
theorem ofThree_precedes_iff (hbyte : 0xe0 ≤ byte.toNat) :
    (ofThree byte).Precedes n ↔
      byte.toNat = n / 4096 + 224 ∧ 2047 < n ∧ (n < 0xd800 ∨ 0xdfff < n) := by
  constructor
  · rintro ⟨hvalue, hleast, hgreatest⟩
    dsimp only [ofThree] at *
    split at hleast <;> split at hgreatest <;> omega
  · rintro ⟨hvalue, hlow, hsurrogate⟩
    refine ⟨?_, ?_, ?_⟩ <;> dsimp only [ofThree] <;> try split
    all_goals omega

/-- The range of the second byte keeps out what has a shorter form and what is beyond
the last code point. -/
theorem ofFour_precedes_iff (hbyte : 0xf0 ≤ byte.toNat) (hbyte' : byte.toNat < 0xf5) :
    (ofFour byte).Precedes n ↔
      byte.toNat = n / 262144 + 240 ∧ 65535 < n ∧ n < 0x110000 := by
  constructor
  · rintro ⟨hvalue, hleast, hgreatest⟩
    dsimp only [ofFour] at *
    split at hleast <;> split at hgreatest <;> omega
  · rintro ⟨hvalue, hlow, hhigh⟩
    refine ⟨?_, ?_, ?_⟩ <;> dsimp only [ofFour] <;> try split
    all_goals omega

end Begun

/-! ### All bytes of a character -/

theorem toNat_cases (c : Char) :
    c.toNat < 0xd800 ∨ 0xdfff < c.toNat ∧ c.toNat < 0x110000 :=
  c.valid

theorem toNat_ofNat_of_scalar {n : Nat}
    (hn : n < 0xd800 ∨ 0xdfff < n ∧ n < 0x110000) : (Char.ofNat n).toNat = n := by
  rw [Char.ofNat, dif_pos hn]
  rfl

/-- The first byte of a character has the first part of its number. -/
theorem utf8EncodeChar_eq (c : Char) :
    String.utf8EncodeChar c =
      if c.toNat ≤ 127 then [UInt8.ofNat c.toNat]
      else if c.toNat ≤ 2047 then UInt8.ofNat (c.toNat / 64 + 192) :: tails 1 c.toNat
      else if c.toNat ≤ 65535 then UInt8.ofNat (c.toNat / 4096 + 224) :: tails 2 c.toNat
      else UInt8.ofNat (c.toNat / 262144 + 240) :: tails 3 c.toNat := by
  have hcases := toNat_cases c
  have hval : c.val.toNat = c.toNat := rfl
  rw [String.utf8EncodeChar, hval]
  split_ifs
  · rfl
  · rw [Nat.mod_eq_of_lt (by omega : c.toNat / 64 < 32)]
    simp [tails]
  · rw [Nat.mod_eq_of_lt (by omega : c.toNat / 4096 < 16)]
    simp [tails]
  · rw [Nat.mod_eq_of_lt (by omega : c.toNat / 262144 < 8)]
    simp [tails]

/-- The decoder reads a character from its bytes. -/
theorem reads_utf8EncodeChar (c : Char) : Stage.between.Reads (String.utf8EncodeChar c) c := by
  have hcases := toNat_cases c
  have hc := (Char.ofNat_toNat c).symm
  -- the decoder begins a character of as many bytes as there are
  have hreads {byte : UInt8} {begun : Begun} (hvalid : begun.Valid)
      (hbegins : Begins byte (.goOn (.within begun))) (hprecedes : begun.Precedes c.toNat) :
      Stage.between.Reads (byte :: tails begun.owed c.toNat) c :=
    .more ((begins_begin byte).unique hbegins)
      ((Begun.reads_iff hvalid).mpr ⟨_, hprecedes, rfl, hc⟩)
  rw [utf8EncodeChar_eq]
  split_ifs
  · have hbyte := toNat_ofNat_of_lt (n := c.toNat) (by omega)
    generalize UInt8.ofNat c.toNat = byte at *
    have hbegin := (begins_begin byte).unique (.one (by omega))
    rw [hbyte, ← hc] at hbegin
    exact .last hbegin
  · have hbyte := toNat_ofNat_of_lt (n := c.toNat / 64 + 192) (by omega)
    generalize UInt8.ofNat (c.toNat / 64 + 192) = byte at *
    apply hreads Begun.valid_ofTwo (.two (by omega) (by omega))
    rw [Begun.ofTwo_precedes_iff (by omega)]
    omega
  · have hbyte := toNat_ofNat_of_lt (n := c.toNat / 4096 + 224) (by omega)
    generalize UInt8.ofNat (c.toNat / 4096 + 224) = byte at *
    apply hreads Begun.valid_ofThree (.three (by omega) (by omega))
    rw [Begun.ofThree_precedes_iff (by omega)]
    omega
  · have hbyte := toNat_ofNat_of_lt (n := c.toNat / 262144 + 240) (by omega)
    generalize UInt8.ofNat (c.toNat / 262144 + 240) = byte at *
    apply hreads Begun.valid_ofFour (.four (by omega) (by omega))
    rw [Begun.ofFour_precedes_iff (by omega) (by omega)]
    omega

/-- The decoder reads a character from no other bytes. -/
theorem Stage.Reads.eq_utf8EncodeChar {bytes : List UInt8} {c : Char}
    (h : Stage.between.Reads bytes c) : bytes = String.utf8EncodeChar c := by
  cases bytes with
  | nil => cases h
  | cons byte bytes =>
      rw [Stage.reads_cons_iff, Stage.move] at h
      have hbegins := begins_begin byte
      generalize begin byte = move at h hbegins
      rw [utf8EncodeChar_eq]
      cases hbegins with
      | one hbyte =>
          obtain ⟨⟨⟩, rfl⟩ | ⟨_, ⟨⟩, -⟩ := h
          rw [toNat_ofNat_of_scalar (by omega), if_pos (by omega), UInt8.ofNat_toNat]
      | two hlow hhigh =>
          obtain ⟨⟨⟩, -⟩ | ⟨_, ⟨⟩, hrest⟩ := h
          obtain ⟨n, hprecedes, rfl, rfl⟩ := (Begun.reads_iff Begun.valid_ofTwo).mp hrest
          rw [Begun.ofTwo_precedes_iff hlow] at hprecedes
          rw [toNat_ofNat_of_scalar (by omega), if_neg (by omega), if_pos (by omega),
            ← hprecedes.1, UInt8.ofNat_toNat, Begun.ofTwo]
      | three hlow hhigh =>
          obtain ⟨⟨⟩, -⟩ | ⟨_, ⟨⟩, hrest⟩ := h
          obtain ⟨n, hprecedes, rfl, rfl⟩ := (Begun.reads_iff Begun.valid_ofThree).mp hrest
          rw [Begun.ofThree_precedes_iff hlow] at hprecedes
          rw [toNat_ofNat_of_scalar (by omega), if_neg (by omega), if_neg (by omega),
            if_pos (by omega), ← hprecedes.1, UInt8.ofNat_toNat, Begun.ofThree]
      | four hlow hhigh =>
          obtain ⟨⟨⟩, -⟩ | ⟨_, ⟨⟩, hrest⟩ := h
          obtain ⟨n, hprecedes, rfl, rfl⟩ := (Begun.reads_iff Begun.valid_ofFour).mp hrest
          rw [Begun.ofFour_precedes_iff hlow hhigh] at hprecedes
          rw [toNat_ofNat_of_scalar (by omega), if_neg (by omega), if_neg (by omega),
            if_neg (by omega), ← hprecedes.1, UInt8.ofNat_toNat, Begun.ofFour]
      | refused => obtain ⟨⟨⟩, -⟩ | ⟨_, ⟨⟩, -⟩ := h

/-! ### Whole texts -/

theorem decodeFrom_encode (position : Nat) (before text : List Char) :
    decodeFrom position .between before (encode text) = .ok (before.reverse ++ text) := by
  induction text generalizing position before with
  | nil =>
      rw [List.append_nil]
      rfl
  | cons c text ih =>
      rw [encode, List.flatMap_cons, (reads_utf8EncodeChar c).decodeFrom, ← encode, ih]
      simp

theorem encode_of_decodeFrom {position : Nat} {before text : List Char} {bytes : List UInt8}
    (h : decodeFrom position .between before bytes = .ok text) :
    ∃ rest, text = before.reverse ++ rest ∧ encode rest = bytes := by
  rcases decodeFrom_eq_ok h with ⟨-, rfl, rfl⟩ | ⟨c, front, rest, rfl, hlength, hreads, hrest⟩
  · exact ⟨[], by simp [encode]⟩
  · obtain ⟨text, rfl, rfl⟩ := encode_of_decodeFrom hrest
    refine ⟨c :: text, by simp, ?_⟩
    rw [hreads.eq_utf8EncodeChar, encode, List.flatMap_cons, encode]
termination_by bytes.length

/-- The decoder makes a text of the bytes of the text and of no others. -/
theorem decode_eq_ok_iff {bytes : List UInt8} {text : List Char} :
    decode bytes = .ok text ↔ encode text = bytes := by
  constructor
  · intro h
    obtain ⟨rest, rfl, hencode⟩ := encode_of_decodeFrom h
    exact hencode
  · rintro rfl
    exact decodeFrom_encode 0 [] text

end Tilde.Text.Utf8

namespace Tilde.Text

/-! ### Line ends -/

/-- A text and the same text with a line feed for each of its line ends. -/
inductive Unifies : List Char → List Char → Prop
  | nil : Unifies [] []
  | both {rest unified : List Char} (hrest : Unifies rest unified) :
      Unifies ('\r' :: '\n' :: rest) ('\n' :: unified)
  | lone {rest unified : List Char} (hnext : rest.head? ≠ some '\n')
      (hrest : Unifies rest unified) : Unifies ('\r' :: rest) ('\n' :: unified)
  | other {c : Char} {rest unified : List Char} (hc : c ≠ '\r')
      (hrest : Unifies rest unified) : Unifies (c :: rest) (c :: unified)

/-- What becomes of a text that comes after another character. -/
def unifyAfter (previous : Option Char) (text : List Char) : List Char :=
  ((previous :: text.map some).zip text).filterMap fun pair => unifyNewline pair.1 pair.2

theorem unifyAfter_cons (previous : Option Char) (c : Char) (rest : List Char) :
    unifyAfter previous (c :: rest) =
      (unifyNewline previous c).toList ++ unifyAfter (some c) rest := by
  rw [unifyAfter, List.map_cons, List.zip_cons_cons, List.filterMap_cons]
  cases unifyNewline previous c <;> rfl

/-- The character before matters only if it makes one line end with the first of the
text. -/
theorem unifyAfter_eq {previous : Option Char} {text : List Char}
    (h : previous = some '\r' → text.head? ≠ some '\n') :
    unifyAfter previous text = unifyNewlines text := by
  cases text with
  | nil => rfl
  | cons c rest =>
      have hlone : ¬(c = '\n' ∧ previous = some '\r') := by
        rintro ⟨rfl, hprevious⟩
        exact h hprevious rfl
      have hfirst : unifyNewline previous c = unifyNewline none c := by
        simp [unifyNewline, hlone]
      change _ = unifyAfter none (c :: rest)
      rw [unifyAfter_cons, unifyAfter_cons, hfirst]

theorem unifyNewlines_cons_of_ne {c : Char} (hc : c ≠ '\r') (rest : List Char) :
    unifyNewlines (c :: rest) = c :: unifyNewlines rest := by
  have hkept : unifyNewline none c = some c := by
    simp [unifyNewline, hc]
  have hrest : unifyAfter (some c) rest = unifyNewlines rest :=
    unifyAfter_eq fun hprevious => absurd (Option.some.inj hprevious) hc
  change unifyAfter none (c :: rest) = _
  rw [unifyAfter_cons, hkept, hrest]
  rfl

theorem unifyNewlines_return (rest : List Char) :
    unifyNewlines ('\r' :: rest) = '\n' :: unifyAfter (some '\r') rest :=
  unifyAfter_cons none '\r' rest

theorem unifyNewlines_both (rest : List Char) :
    unifyNewlines ('\r' :: '\n' :: rest) = '\n' :: unifyNewlines rest := by
  have hrest : unifyAfter (some '\n') rest = unifyNewlines rest :=
    unifyAfter_eq fun hprevious => absurd hprevious (by decide)
  rw [unifyNewlines_return, unifyAfter_cons, hrest]
  rfl

theorem unifyNewlines_lone {rest : List Char} (hnext : rest.head? ≠ some '\n') :
    unifyNewlines ('\r' :: rest) = '\n' :: unifyNewlines rest := by
  rw [unifyNewlines_return, unifyAfter_eq fun _ => hnext]

theorem unifies_unifyNewlines (text : List Char) : Unifies text (unifyNewlines text) := by
  cases text with
  | nil => exact .nil
  | cons c rest =>
      by_cases hc : c = '\r'
      · subst hc
        by_cases hnext : rest.head? = some '\n'
        · obtain ⟨rest, rfl⟩ := List.head?_eq_some_iff.mp hnext
          rw [unifyNewlines_both]
          exact .both (unifies_unifyNewlines rest)
        · rw [unifyNewlines_lone hnext]
          exact .lone hnext (unifies_unifyNewlines rest)
      · rw [unifyNewlines_cons_of_ne hc]
        exact .other hc (unifies_unifyNewlines rest)
termination_by text.length

/-- The line ends of a text are unified in one way only, which is the computed one. -/
theorem unifies_iff {text unified : List Char} :
    Unifies text unified ↔ unifyNewlines text = unified := by
  constructor
  · intro h
    induction h with
    | nil => rfl
    | both _ ih => rw [unifyNewlines_both, ih]
    | lone hnext _ ih => rw [unifyNewlines_lone hnext, ih]
    | other hc _ ih => rw [unifyNewlines_cons_of_ne hc, ih]
  · rintro rfl
    exact unifies_unifyNewlines text

end Tilde.Text
