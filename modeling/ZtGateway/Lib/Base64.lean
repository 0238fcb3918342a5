import Mathlib.Tactic

/-! Base64 in the two alphabets, with the lenient decoder of JavaScript runtimes: it reads
either alphabet, a character of neither is skipped or ends the input, and bits that do not
fill a byte are dropped. -/

namespace ZTG

namespace Base64

def letters : List Char := "ABCDEFGHIJKLMNOPQRSTUVWXYZabcdefghijklmnopqrstuvwxyz0123456789".toList

def standard : List Char := letters ++ ['+', '/']

def url : List Char := letters ++ ['-', '_']

/-- the six bits of a character -/
def sextet (c : Char) : Option ℕ :=
  match standard.idxOf? c with
  | some n => some n
  | none => url.idxOf? c

def pack : List (BitVec 8) → List ℕ
  | x :: y :: z :: rest =>
    x.toNat / 4 :: (x.toNat % 4 * 16 + y.toNat / 16) :: (y.toNat % 16 * 4 + z.toNat / 64) ::
      z.toNat % 64 :: pack rest
  | [x, y] => [x.toNat / 4, x.toNat % 4 * 16 + y.toNat / 16, y.toNat % 16 * 4]
  | [x] => [x.toNat / 4, x.toNat % 4 * 16]
  | [] => []

def unpack : List ℕ → List (BitVec 8)
  | a :: b :: c :: d :: rest =>
    BitVec.ofNat 8 (a * 4 + b / 16) :: BitVec.ofNat 8 (b % 16 * 16 + c / 4) ::
      BitVec.ofNat 8 (c % 4 * 64 + d) :: unpack rest
  | [a, b, c] => [BitVec.ofNat 8 (a * 4 + b / 16), BitVec.ofNat 8 (b % 16 * 16 + c / 4)]
  | [a, b] => [BitVec.ofNat 8 (a * 4 + b / 16)]
  | _ => []

/-- without padding -/
def encode (alphabet : List Char) (bytes : List (BitVec 8)) : List Char :=
  (pack bytes).map fun n => alphabet.getD n 'A'

/-- with padding to a multiple of four characters -/
def encodePadded (alphabet : List Char) (bytes : List (BitVec 8)) : List Char :=
  encode alphabet bytes ++ List.replicate ((3 - bytes.length % 3) % 3) '='

/-- `ends` says which of the characters of neither alphabet end the input. -/
def decode (ends : Char → Bool) (s : List Char) : List (BitVec 8) :=
  unpack ((s.takeWhile fun c => (sextet c).isSome || !ends c).filterMap sextet)

theorem unpack_pack (bytes : List (BitVec 8)) : unpack (pack bytes) = bytes := by
  fun_induction pack bytes with
  | case1 x y z rest ih =>
    have hx := x.isLt
    have hy := y.isLt
    have hz := z.isLt
    rw [unpack, ih]
    congr 1
    · exact BitVec.eq_of_toNat_eq (by rw [BitVec.toNat_ofNat]; omega)
    congr 1
    · exact BitVec.eq_of_toNat_eq (by rw [BitVec.toNat_ofNat]; omega)
    congr 1
    · exact BitVec.eq_of_toNat_eq (by rw [BitVec.toNat_ofNat]; omega)
  | case2 x y =>
    have hx := x.isLt
    have hy := y.isLt
    rw [unpack]
    congr 1
    · exact BitVec.eq_of_toNat_eq (by rw [BitVec.toNat_ofNat]; omega)
    congr 1
    · exact BitVec.eq_of_toNat_eq (by rw [BitVec.toNat_ofNat]; omega)
  | case3 x =>
    have hx := x.isLt
    rw [unpack]
    congr 1
    exact BitVec.eq_of_toNat_eq (by rw [BitVec.toNat_ofNat]; omega)
  | case4 => rfl

theorem pack_lt {bytes : List (BitVec 8)} {n : ℕ} (h : n ∈ pack bytes) : n < 64 := by
  fun_induction pack bytes with
  | case1 x y z rest ih =>
    have hx := x.isLt
    have hy := y.isLt
    have hz := z.isLt
    simp only [List.mem_cons] at h
    rcases h with rfl | rfl | rfl | rfl | h
    · omega
    · omega
    · omega
    · omega
    · exact ih h
  | case2 x y =>
    have hx := x.isLt
    have hy := y.isLt
    simp only [List.mem_cons, List.not_mem_nil, or_false] at h
    omega
  | case3 x =>
    have hx := x.isLt
    simp only [List.mem_cons, List.not_mem_nil, or_false] at h
    omega
  | case4 => simp at h

/-- The letters and digits are three ranges of codes. -/
theorem letters_codes : letters.map Char.toNat =
    List.range' 65 26 ++ (List.range' 97 26 ++ List.range' 48 10) := by
  have hletters : letters = ['A', 'B', 'C', 'D', 'E', 'F', 'G', 'H', 'I', 'J', 'K', 'L', 'M',
      'N', 'O', 'P', 'Q', 'R', 'S', 'T', 'U', 'V', 'W', 'X', 'Y', 'Z', 'a', 'b', 'c', 'd', 'e',
      'f', 'g', 'h', 'i', 'j', 'k', 'l', 'm', 'n', 'o', 'p', 'q', 'r', 's', 't', 'u', 'v', 'w',
      'x', 'y', 'z', '0', '1', '2', '3', '4', '5', '6', '7', '8', '9'] := String.toList_ofList
  rw [hletters]
  rfl

theorem length_letters : letters.length = 62 := by
  rw [← List.length_map Char.toNat, letters_codes]
  rfl

theorem letter_code {c : Char} (h : c ∈ letters) :
    65 ≤ c.toNat ∧ c.toNat < 91 ∨ 97 ≤ c.toNat ∧ c.toNat < 123 ∨ 48 ≤ c.toNat ∧ c.toNat < 58 := by
  have hcode := List.mem_map_of_mem (f := Char.toNat) h
  rw [letters_codes, List.mem_append, List.mem_append, List.mem_range'_1, List.mem_range'_1,
    List.mem_range'_1] at hcode
  omega

theorem nodup_letters : letters.Nodup := by
  refine List.Nodup.of_map Char.toNat ?_
  rw [letters_codes]
  refine List.nodup_append'.mpr ⟨List.nodup_range', List.nodup_append'.mpr
    ⟨List.nodup_range', List.nodup_range', ?_⟩, ?_⟩
  · intro n hn hn'
    rw [List.mem_range'_1] at hn hn'
    omega
  · intro n hn hn'
    rw [List.mem_append, List.mem_range'_1, List.mem_range'_1] at hn'
    rw [List.mem_range'_1] at hn
    omega

/-- Two more characters, which are no letters. -/
theorem nodup_alphabet {x y : Char} (hx : x ∉ letters) (hy : y ∉ letters) (hxy : x ≠ y) :
    (letters ++ [x, y]).Nodup := by
  refine List.nodup_append'.mpr ⟨nodup_letters, by simp [hxy], ?_⟩
  intro c hc hc'
  rcases List.mem_pair.mp hc' with rfl | rfl
  · exact hx hc
  · exact hy hc

theorem idxOf?_getD {l : List Char} (hl : l.Nodup) {n : ℕ} (hn : n < l.length) :
    l.idxOf? (l.getD n 'A') = some n := by
  rw [List.getD_eq_getElem?_getD, List.getElem?_eq_getElem hn, Option.getD_some,
    List.idxOf?_eq_some_iff]
  refine ⟨hn, rfl, fun j hj heq => ?_⟩
  have hsame := (List.Nodup.getElem_inj_iff hl).mp heq
  omega

theorem not_letter {c : Char} (h : c.toNat < 48 ∨ 57 < c.toNat ∧ c.toNat < 65 ∨
    90 < c.toNat ∧ c.toNat < 97) : c ∉ letters := by
  intro hc
  have hcode := letter_code hc
  omega

theorem sextet_of_not_mem {c : Char} (hletter : c ∉ letters) (hother : c ∉ ['+', '/', '-', '_']) :
    sextet c = none := by
  have hstandard : c ∉ standard := by
    rw [standard, List.mem_append]
    simp only [List.mem_cons] at hother ⊢
    tauto
  have hurl : c ∉ url := by
    rw [url, List.mem_append]
    simp only [List.mem_cons] at hother ⊢
    tauto
  rw [sextet, List.idxOf?_eq_none_iff.mpr hstandard]
  exact List.idxOf?_eq_none_iff.mpr hurl

/-- The decoder reads every character of the alphabet as its place in it. -/
def Reads (alphabet : List Char) : Prop := ∀ n < 64, sextet (alphabet.getD n 'A') = some n

theorem reads_standard : Reads standard := by
  intro n hn
  have hnodup : standard.Nodup := nodup_alphabet (not_letter (by decide)) (not_letter (by decide))
    (by decide)
  have hlength : standard.length = 64 := by rw [standard, List.length_append, length_letters]; rfl
  rw [sextet, idxOf?_getD hnodup (hlength ▸ hn)]

theorem reads_url : Reads url := by
  intro n hn
  have hnodup : url.Nodup := nodup_alphabet (not_letter (by decide)) (not_letter (by decide))
    (by decide)
  have hlength : url.length = 64 := by rw [url, List.length_append, length_letters]; rfl
  by_cases hletter : n < letters.length
  · have hsame : url.getD n 'A' = standard.getD n 'A' := by
      rw [url, standard, List.getD_eq_getElem?_getD, List.getD_eq_getElem?_getD,
        List.getElem?_append_left hletter, List.getElem?_append_left hletter]
    rw [hsame]
    exact reads_standard n hn
  · -- the last two characters are not in the standard alphabet
    have hother : url.getD n 'A' ∉ standard := by
      have hmem : url.getD n 'A' ∈ ['-', '_'] := by
        have hlt : n - letters.length < ['-', '_'].length := by
          rw [length_letters]
          simp only [List.length_cons, List.length_nil]
          omega
        rw [url, List.getD_eq_getElem?_getD, List.getElem?_append_right (not_lt.mp hletter),
          List.getElem?_eq_getElem hlt, Option.getD_some]
        exact List.getElem_mem hlt
      intro hstd
      rcases List.mem_append.mp hstd with h | h
      · rcases List.mem_pair.mp hmem with heq | heq
        · exact not_letter (by decide) (heq ▸ h)
        · exact not_letter (by decide) (heq ▸ h)
      · rcases List.mem_pair.mp hmem with heq | heq
        · rw [heq] at h
          exact absurd h (by decide)
        · rw [heq] at h
          exact absurd h (by decide)
    rw [sextet, List.idxOf?_eq_none_iff.mpr hother]
    exact idxOf?_getD hnodup (hlength ▸ hn)

theorem encode_ne_nil {alphabet : List Char} {bytes : List (BitVec 8)} (h : bytes ≠ []) :
    encode alphabet bytes ≠ [] := by
  unfold encode
  rw [Ne, List.map_eq_nil_iff]
  fun_cases pack bytes
  · simp
  · simp
  · simp
  · exact absurd rfl h

/-- What follows the last character that counts is ignored. -/
theorem decode_append {ends : Char → Bool} {s t : List Char} (hs : ∀ c ∈ s, (sextet c).isSome)
    (ht : ∀ c ∈ t, sextet c = none) : decode ends (s ++ t) = unpack (s.filterMap sextet) := by
  unfold decode
  have htake : (s ++ t).takeWhile (fun c => (sextet c).isSome || !ends c) =
      s ++ t.takeWhile fun c => (sextet c).isSome || !ends c := by
    rw [List.takeWhile_append_of_pos]
    intro c hc
    simp [hs c hc]
  have hnone : (t.takeWhile fun c => (sextet c).isSome || !ends c).filterMap sextet = [] :=
    List.filterMap_eq_nil_iff.mpr fun c hc => ht c (List.takeWhile_subset _ hc)
  rw [htake, List.filterMap_append, hnone, List.append_nil]

/-- One more character of neither alphabet changes nothing, wherever the input ended. -/
theorem decode_snoc {ends : Char → Bool} (s : List Char) {c : Char} (hc : sextet c = none) :
    decode ends (s ++ [c]) = decode ends s := by
  unfold decode
  rw [List.takeWhile_append]
  split_ifs with hall
  · rw [List.filterMap_append]
    have hnone : ([c].takeWhile fun c => (sextet c).isSome || !ends c).filterMap sextet = [] :=
      List.filterMap_eq_nil_iff.mpr fun c' hc' => by
        rw [List.mem_singleton.mp (List.takeWhile_subset _ hc'), hc]
    rw [hnone, List.append_nil, (List.takeWhile_prefix _).eq_of_length hall]
  · rfl

theorem sextet_of_encode {alphabet : List Char} (ha : Reads alphabet) {bytes : List (BitVec 8)}
    {c : Char} (h : c ∈ encode alphabet bytes) : (sextet c).isSome := by
  obtain ⟨n, hn, rfl⟩ := List.mem_map.mp h
  rw [ha n (pack_lt hn)]
  rfl

theorem decode_encode_append {alphabet : List Char} (ha : Reads alphabet) (ends : Char → Bool)
    (bytes : List (BitVec 8)) {t : List Char} (ht : ∀ c ∈ t, sextet c = none) :
    decode ends (encode alphabet bytes ++ t) = bytes := by
  rw [decode_append (fun c hc => sextet_of_encode ha hc) ht, encode, List.filterMap_map]
  have hsome : (pack bytes).filterMap (sextet ∘ fun n => alphabet.getD n 'A') = pack bytes := by
    have hread : ∀ n ∈ pack bytes, (sextet ∘ fun n => alphabet.getD n 'A') n = some n :=
      fun n hn => ha n (pack_lt hn)
    rw [List.filterMap_congr hread, List.filterMap_some]
  rw [hsome, unpack_pack]

end Base64

end ZTG
