import CachePolicy.Text.Utf8
import Mathlib.Data.List.Infix

/-!
# Reading what was written as UTF-8

`Utf8.Sequence` lists the sequences of bytes that are one character, with the number of the
character.  They are what `Utf8.next` reads, and what a character is encoded as.  So text survives
where faults are replaced, and a character that is not the replacement was encoded in the bytes.
-/

namespace CachePolicy.Utf8

theorem toNat_ofNat_of_le {n : Nat} (small : n ≤ 255) : (UInt8.ofNat n).toNat = n := by
  rw [UInt8.toNat_ofNat']
  omega

theorem isContinuation_iff {b : UInt8} :
    isContinuation b = true ↔ 128 ≤ b.toNat ∧ b.toNat ≤ 191 := by
  simp [isContinuation, UInt8.le_iff_toNat_le]

/-- A second byte is a continuation, of which four first bytes allow only some. -/
theorem allowsSecond_iff {a b : UInt8} : allowsSecond a b = true ↔
    (128 ≤ b.toNat ∧ b.toNat ≤ 191) ∧ (a.toNat = 224 → 160 ≤ b.toNat) ∧
      (a.toNat = 237 → b.toNat ≤ 159) ∧ (a.toNat = 240 → 144 ≤ b.toNat) ∧
      (a.toNat = 244 → b.toNat ≤ 143) := by
  simp only [allowsSecond, isContinuation, ← UInt8.toNat_inj, UInt8.le_iff_toNat_le]
  simp
  grind

theorem payload_lt (b : UInt8) : payload b < 64 := Nat.mod_lt _ (by decide)

theorem toNat_eq_payload {b : UInt8} (continues : 128 ≤ b.toNat ∧ b.toNat ≤ 191) :
    b.toNat = 128 + payload b := by
  rw [payload]
  omega

theorem next_cons (a : UInt8) (rest : List UInt8) :
    next (a :: rest) =
      if a.toNat < 128 then .char (Char.ofNat a.toNat) 1
      else if a.toNat < 194 ∨ 244 < a.toNat then .invalid 1
      else match rest with
        | [] => .truncated
        | b :: rest =>
          if !allowsSecond a b then .invalid 1
          else if a.toNat < 224 then .char (Char.ofNat (a.toNat % 32 * 64 + payload b)) 2
          else match rest with
            | [] => .truncated
            | c :: rest =>
              if !isContinuation c then .invalid 2
              else if a.toNat < 240 then
                .char (Char.ofNat (a.toNat % 16 * 4096 + payload b * 64 + payload c)) 3
              else match rest with
                | [] => .truncated
                | d :: _ =>
                  if !isContinuation d then .invalid 3
                  else .char (Char.ofNat (a.toNat % 8 * 262144 + payload b * 4096 +
                    payload c * 64 + payload d)) 4 := rfl

/-! ## Characters as sequences of bytes -/

/-- The bytes of one character, and its number. -/
inductive Sequence : List UInt8 → Nat → Prop where
  | one {a : UInt8} (first : a.toNat < 128) : Sequence [a] a.toNat
  | two {a b : UInt8} (first : 194 ≤ a.toNat ∧ a.toNat < 224) (second : allowsSecond a b = true) :
      Sequence [a, b] (a.toNat % 32 * 64 + payload b)
  | three {a b c : UInt8} (first : 224 ≤ a.toNat ∧ a.toNat < 240)
      (second : allowsSecond a b = true) (third : isContinuation c = true) :
      Sequence [a, b, c] (a.toNat % 16 * 4096 + payload b * 64 + payload c)
  | four {a b c d : UInt8} (first : 240 ≤ a.toNat ∧ a.toNat ≤ 244)
      (second : allowsSecond a b = true) (third : isContinuation c = true)
      (fourth : isContinuation d = true) :
      Sequence [a, b, c, d]
        (a.toNat % 8 * 262144 + payload b * 4096 + payload c * 64 + payload d)

namespace Sequence

variable {bytes : List UInt8} {n : Nat}

theorem next (sequence : Sequence bytes n) (rest : List UInt8) :
    next (bytes ++ rest) = .char (Char.ofNat n) bytes.length := by
  cases sequence with
  | one first => rw [List.singleton_append, next_cons, if_pos first, List.length_singleton]
  | @two a b first second =>
      have high : ¬ a.toNat < 128 := by omega
      have leads : ¬ (a.toNat < 194 ∨ 244 < a.toNat) := by omega
      rw [List.cons_append, next_cons, if_neg high, if_neg leads]
      simp [second, first.2]
  | @three a b c first second third =>
      have high : ¬ a.toNat < 128 := by omega
      have leads : ¬ (a.toNat < 194 ∨ 244 < a.toNat) := by omega
      have long : ¬ a.toNat < 224 := by omega
      rw [List.cons_append, next_cons, if_neg high, if_neg leads]
      simp [second, third, long, first.2]
  | @four a b c d first second third fourth =>
      have high : ¬ a.toNat < 128 := by omega
      have leads : ¬ (a.toNat < 194 ∨ 244 < a.toNat) := by omega
      have long : ¬ a.toNat < 224 := by omega
      have longer : ¬ a.toNat < 240 := by omega
      rw [List.cons_append, next_cons, if_neg high, if_neg leads]
      simp [second, third, fourth, long, longer]

/-- No sequence has the number of a surrogate, or one that is too large. -/
theorem isValidChar (sequence : Sequence bytes n) : n.isValidChar := by
  rw [Nat.isValidChar]
  cases sequence with
  | one first => omega
  | @two a b first second =>
      have tail := payload_lt b
      omega
  | @three a b c first second third =>
      obtain ⟨continues, -, highest, -, -⟩ := allowsSecond_iff.mp second
      have middle := toNat_eq_payload continues
      have tail := payload_lt c
      omega
  | @four a b c d first second third fourth =>
      obtain ⟨continues, -, -, lowest, highest⟩ := allowsSecond_iff.mp second
      have middle := toNat_eq_payload continues
      have later := payload_lt c
      have tail := payload_lt d
      omega

/-- The character with the number is encoded as the sequence. -/
theorem utf8EncodeChar_eq (sequence : Sequence bytes n) :
    String.utf8EncodeChar (Char.ofNat n) = bytes := by
  have number : (Char.ofNat n).val.toNat = n := by
    rw [Char.ofNat, dif_pos sequence.isValidChar]
    rfl
  have byte {m : Nat} {b : UInt8} (same : m = b.toNat) : UInt8.ofNat m = b := by
    rw [same, UInt8.ofNat_toNat]
  rw [String.utf8EncodeChar]
  simp only [number]
  cases sequence with
  | @one a first => rw [if_pos (show a.toNat ≤ 127 by omega), byte rfl]
  | @two a b first second =>
      have tail := toNat_eq_payload (allowsSecond_iff.mp second).1
      have small := payload_lt b
      generalize value : a.toNat % 32 * 64 + payload b = n
      have large : ¬ n ≤ 127 := by omega
      have double : n ≤ 2047 := by omega
      rw [if_neg large, if_pos double, byte (b := a) (by omega), byte (b := b) (by omega)]
  | @three a b c first second third =>
      obtain ⟨continues, lowest, -⟩ := allowsSecond_iff.mp second
      have middle := toNat_eq_payload continues
      have tail := toNat_eq_payload (isContinuation_iff.mp third)
      have small := payload_lt b
      have small' := payload_lt c
      generalize value : a.toNat % 16 * 4096 + payload b * 64 + payload c = n
      have large : ¬ n ≤ 127 := by omega
      have large' : ¬ n ≤ 2047 := by omega
      have triple : n ≤ 65535 := by omega
      rw [if_neg large, if_neg large', if_pos triple, byte (b := a) (by omega),
        byte (b := b) (by omega), byte (b := c) (by omega)]
  | @four a b c d first second third fourth =>
      obtain ⟨continues, -, -, lowest, -⟩ := allowsSecond_iff.mp second
      have middle := toNat_eq_payload continues
      have later := toNat_eq_payload (isContinuation_iff.mp third)
      have tail := toNat_eq_payload (isContinuation_iff.mp fourth)
      have small := payload_lt b
      have small' := payload_lt c
      have small'' := payload_lt d
      generalize value :
        a.toNat % 8 * 262144 + payload b * 4096 + payload c * 64 + payload d = n
      have large : ¬ n ≤ 127 := by omega
      have large' : ¬ n ≤ 2047 := by omega
      have large'' : ¬ n ≤ 65535 := by omega
      rw [if_neg large, if_neg large', if_neg large'', byte (b := a) (by omega),
        byte (b := b) (by omega), byte (b := c) (by omega), byte (b := d) (by omega)]

end Sequence

/-- Every character is encoded as a sequence of its number. -/
theorem sequence_utf8EncodeChar (c : Char) : Sequence (String.utf8EncodeChar c) c.toNat := by
  have valid : c.toNat < 0xD800 ∨ 0xDFFF < c.toNat ∧ c.toNat < 0x110000 := c.valid
  rw [String.utf8EncodeChar, ← Char.toNat]
  generalize c.toNat = n at valid
  have tail {m : Nat} : (UInt8.ofNat (m % 64 + 128)).toNat = m % 64 + 128 :=
    toNat_ofNat_of_le (by omega)
  have continues {m : Nat} : isContinuation (UInt8.ofNat (m % 64 + 128)) = true := by
    rw [isContinuation_iff, tail]
    omega
  split
  · next single =>
      have first : (UInt8.ofNat n).toNat = n := toNat_ofNat_of_le (by omega)
      have one := Sequence.one (a := UInt8.ofNat n) (by omega)
      rwa [first] at one
  · split
    · next large double =>
        have first : (UInt8.ofNat (n / 64 % 32 + 192)).toNat = n / 64 + 192 := by
          rw [toNat_ofNat_of_le (by omega)]
          omega
        have two := Sequence.two (a := UInt8.ofNat (n / 64 % 32 + 192))
          (b := UInt8.ofNat (n % 64 + 128)) (by omega)
          (allowsSecond_iff.mpr (by rw [first, tail]; omega))
        rw [payload, first, tail] at two
        convert two using 1
        omega
    · split
      · next large large' triple =>
          have first : (UInt8.ofNat (n / 4096 % 16 + 224)).toNat = n / 4096 + 224 := by
            rw [toNat_ofNat_of_le (by omega)]
            omega
          have three := Sequence.three (a := UInt8.ofNat (n / 4096 % 16 + 224))
            (b := UInt8.ofNat (n / 64 % 64 + 128)) (c := UInt8.ofNat (n % 64 + 128)) (by omega)
            (allowsSecond_iff.mpr (by rw [first, tail]; omega)) continues
          rw [payload, payload, first, tail, tail] at three
          convert three using 1
          omega
      · next large large' large'' =>
          have first : (UInt8.ofNat (n / 262144 % 8 + 240)).toNat = n / 262144 + 240 := by
            rw [toNat_ofNat_of_le (by omega)]
            omega
          have four := Sequence.four (a := UInt8.ofNat (n / 262144 % 8 + 240))
            (b := UInt8.ofNat (n / 4096 % 64 + 128)) (c := UInt8.ofNat (n / 64 % 64 + 128))
            (d := UInt8.ofNat (n % 64 + 128)) (by omega)
            (allowsSecond_iff.mpr (by rw [first, tail]; omega)) continues continues
          rw [payload, payload, payload, first, tail, tail, tail] at four
          convert four using 1
          omega

/-- What is read as a character is its encoding. -/
theorem exists_of_next {bytes : List UInt8} {c : Char} {size : Nat}
    (read : next bytes = .char c size) :
    ∃ rest, bytes = String.utf8EncodeChar c ++ rest ∧ size = (String.utf8EncodeChar c).length := by
  suffices sequences : ∃ sequence rest n, bytes = sequence ++ rest ∧ Sequence sequence n by
    obtain ⟨sequence, rest, n, rfl, reads⟩ := sequences
    cases (reads.next rest).symm.trans read
    rw [reads.utf8EncodeChar_eq]
    exact ⟨rest, rfl, rfl⟩
  -- The cases are those of `next`, in which all but four give no character.
  obtain _ | ⟨a, rest⟩ := bytes
  · cases read
  rw [next_cons] at read
  split at read
  · next first => exact ⟨[a], rest, _, rfl, .one first⟩
  split at read
  · cases read
  obtain _ | ⟨b, rest⟩ := rest
  · cases read
  dsimp only at read
  split at read
  · cases read
  split at read
  · next second double =>
      exact ⟨[a, b], rest, _, rfl, .two ⟨by omega, double⟩ (by simpa using second)⟩
  obtain _ | ⟨c, rest⟩ := rest
  · cases read
  dsimp only at read
  split at read
  · cases read
  split at read
  · next second _ third triple =>
      exact ⟨[a, b, c], rest, _, rfl,
        .three ⟨by omega, triple⟩ (by simpa using second) (by simpa using third)⟩
  obtain _ | ⟨d, rest⟩ := rest
  · cases read
  dsimp only at read
  split at read
  · cases read
  · next second _ third _ fourth =>
      exact ⟨[a, b, c, d], rest, _, rfl,
        .four ⟨by omega, by omega⟩ (by simpa using second) (by simpa using third)
          (by simpa using fourth)⟩

theorem eq_nil_of_next {bytes : List UInt8} (none : next bytes = .done) : bytes = [] := by
  revert none
  fun_cases next bytes with
  | case1 => exact fun _ => rfl
  | _ => nofun

/-! ## What follows other bytes -/

theorem not_allowsSecond {a b : UInt8} (starts : isContinuation b = false) :
    allowsSecond a b = false := by
  refine Bool.eq_false_iff.mpr fun allowed => ?_
  rw [isContinuation_iff.mpr (allowsSecond_iff.mp allowed).1] at starts
  cases starts

/-- A fault that is seen stays one, whatever follows. -/
theorem next_append_of_invalid {front : List UInt8} {size : Nat}
    (read : next front = .invalid size) (more : List UInt8) :
    next (front ++ more) = .invalid size ∧ 0 < size ∧ size ≤ front.length := by
  revert read
  -- The four places where a byte is none that may stand there.
  fun_cases next front with
  | case3 | case5 | case8 | case11 =>
      rintro ⟨⟩
      simp [next, *]
  | _ => nofun

/-- Bytes that end inside a character are one fault when another character starts behind them. -/
theorem next_append_of_truncated {front : List UInt8} (read : next front = .truncated) {b : UInt8}
    (starts : isContinuation b = false) (more : List UInt8) :
    next (front ++ b :: more) = .invalid front.length := by
  revert read
  -- The bytes end behind the first, the second or the third byte of a character.
  fun_cases next front with
  | case4 | case7 | case10 =>
      intro _
      simp [next, *, not_allowsSecond starts]
  | _ => nofun

/-! ## Texts -/

@[simp] theorem encode_nil : encode [] = [] := rfl

@[simp] theorem encode_cons (c : Char) (chars : List Char) :
    encode (c :: chars) = String.utf8EncodeChar c ++ encode chars := rfl

/-- The characters that bytes are read as, with every fault replaced. -/
inductive Reads : List UInt8 → List Char → Prop where
  | done : Reads [] []
  | char {bytes : List UInt8} {chars : List Char} (c : Char) (later : Reads bytes chars) :
      Reads (String.utf8EncodeChar c ++ bytes) (c :: chars)
  | invalid {bytes : List UInt8} {chars : List Char} {size : Nat}
      (read : next bytes = .invalid size) (later : Reads (bytes.drop size) chars) :
      Reads bytes ('\uFFFD' :: chars)
  | truncated {bytes : List UInt8} (read : next bytes = .truncated) : Reads bytes ['\uFFFD']

theorem reads_lossyChars {fuel : Nat} {bytes : List UInt8} (enough : bytes.length < fuel) :
    Reads bytes (lossyChars fuel bytes) := by
  induction fuel generalizing bytes with
  | zero => cases enough
  | succ fuel ih =>
      rw [lossyChars]
      cases read : next bytes with
      | done =>
          rw [eq_nil_of_next read]
          exact .done
      | char c size =>
          obtain ⟨rest, rfl, rfl⟩ := exists_of_next read
          have some := c.utf8Size_pos
          simp only [List.length_append, String.length_utf8EncodeChar] at enough
          dsimp only
          rw [List.drop_left]
          exact .char c (ih (by omega))
      | invalid size =>
          have some := (next_append_of_invalid read []).2
          exact .invalid read (ih (by rw [List.length_drop]; omega))
      | truncated => exact .truncated read

/-- A text starts with the start of a character. -/
theorem starts_encode (chars : List Char) :
    ∀ b ∈ (encode chars).head?, isContinuation b = false := by
  cases chars with
  | nil => exact nofun
  | cons c rest =>
      intro b starts
      rw [← Bool.not_eq_true, isContinuation_iff]
      have sequence := sequence_utf8EncodeChar c
      rw [encode_cons] at starts
      generalize String.utf8EncodeChar c = bytes at sequence starts
      generalize c.toNat = n at sequence
      cases sequence with
      | one first | two first | three first | four first =>
          cases starts
          omega

namespace Reads

variable {bytes more : List UInt8} {chars others : List Char}

/-- Bytes are read in one way. -/
theorem lossyChars_eq (reads : Reads bytes chars) {fuel : Nat} (enough : bytes.length < fuel) :
    lossyChars fuel bytes = chars := by
  induction reads generalizing fuel with
  | done => cases fuel <;> rfl
  | @char rest _ c later ih =>
      obtain ⟨fuel, rfl⟩ := Nat.exists_eq_add_one_of_ne_zero (Nat.ne_zero_of_lt enough)
      have read := (sequence_utf8EncodeChar c).next rest
      have some := c.utf8Size_pos
      simp only [List.length_append, String.length_utf8EncodeChar] at enough
      rw [Char.ofNat_toNat] at read
      rw [lossyChars, read]
      dsimp only
      rw [List.drop_left, ih (by omega)]
  | invalid read later ih =>
      obtain ⟨fuel, rfl⟩ := Nat.exists_eq_add_one_of_ne_zero (Nat.ne_zero_of_lt enough)
      have some := (next_append_of_invalid read []).2
      rw [lossyChars, read]
      dsimp only
      rw [ih (by rw [List.length_drop]; omega)]
  | truncated read =>
      obtain ⟨fuel, rfl⟩ := Nat.exists_eq_add_one_of_ne_zero (Nat.ne_zero_of_lt enough)
      rw [lossyChars, read]

/-- Text is read as it was written. -/
theorem encode (chars : List Char) : Reads (encode chars) chars := by
  induction chars with
  | nil => exact .done
  | cons c rest ih => exact .char c ih

/-- What is read besides replacements stands in the bytes. -/
theorem infix_of_mem (reads : Reads bytes chars) {c : Char} (member : c ∈ chars)
    (sound : c ≠ '\uFFFD') : String.utf8EncodeChar c <:+: bytes := by
  induction reads with
  | done => cases member
  | char d later ih =>
      obtain rfl | behind := List.mem_cons.mp member
      · exact (List.prefix_append _ _).isInfix
      · exact (ih behind).trans (List.suffix_append _ _).isInfix
  | invalid read later ih =>
      obtain rfl | behind := List.mem_cons.mp member
      · exact absurd rfl sound
      · exact (ih behind).trans (List.drop_suffix _ _).isInfix
  | truncated read => exact absurd (List.mem_singleton.mp member) sound

/-- Bytes that are read without a replacement are those of the characters read. -/
theorem encode_eq (reads : Reads bytes chars) (sound : '\uFFFD' ∉ chars) :
    Utf8.encode chars = bytes := by
  induction reads with
  | done => rfl
  | char c later ih => rw [encode_cons, ih fun behind => sound (List.mem_cons_of_mem _ behind)]
  | invalid read later ih => exact absurd List.mem_cons_self sound
  | truncated read => exact absurd List.mem_cons_self sound

/-- Bytes that start a character are read as they are without those before them. -/
theorem append (reads : Reads bytes chars) (reads' : Reads more others)
    (starts : ∀ b ∈ more.head?, isContinuation b = false) :
    Reads (bytes ++ more) (chars ++ others) := by
  induction reads with
  | done => exact reads'
  | char c later ih =>
      rw [List.append_assoc]
      exact .char c ih
  | invalid read later ih =>
      obtain ⟨again, -, short⟩ := next_append_of_invalid read more
      refine .invalid again ?_
      rw [List.drop_append_of_le_length short]
      exact ih
  | @truncated bytes read =>
      cases more with
      | nil =>
          rw [← reads'.lossyChars_eq Nat.zero_lt_one, List.append_nil]
          exact .truncated read
      | cons b rest =>
          refine .invalid (next_append_of_truncated read (starts b rfl) rest) ?_
          rw [List.drop_left]
          exact reads'

/-- The characters end in a text without replacements just when the bytes end in that of the
text. -/
theorem suffix_iff (reads : Reads bytes chars) {ending : List Char} (sound : '\uFFFD' ∉ ending) :
    ending <:+ chars ↔ Utf8.encode ending <:+ bytes := by
  constructor
  · intro ends
    induction reads with
    | done => rw [List.suffix_nil.mp ends, encode_nil]
    | char c later ih =>
        obtain rfl | behind := List.suffix_cons_iff.mp ends
        · rw [encode_cons, later.encode_eq fun inside => sound (List.mem_cons_of_mem _ inside)]
        · exact (ih behind).trans (List.suffix_append _ _)
    | invalid read later ih =>
        obtain rfl | behind := List.suffix_cons_iff.mp ends
        · exact absurd List.mem_cons_self sound
        · exact (ih behind).trans (List.drop_suffix _ _)
    | truncated read =>
        obtain rfl | behind := List.suffix_cons_iff.mp ends
        · exact absurd List.mem_cons_self sound
        · rw [List.suffix_nil.mp behind, encode_nil]
          exact List.nil_suffix
  · rintro ⟨front, rfl⟩
    have whole := (reads_lossyChars (Nat.lt_succ_self front.length)).append (encode ending)
      (starts_encode ending)
    rw [← reads.lossyChars_eq (Nat.lt_succ_self _), whole.lossyChars_eq (Nat.lt_succ_self _)]
    exact List.suffix_append _ _

end Reads

end CachePolicy.Utf8
