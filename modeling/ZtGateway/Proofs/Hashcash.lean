import ZtGateway.Sanity.Hashcash

/-! A nonce is not canonical: the decoder ignores what follows the last character of the
HMAC's text, while the used-nonce store is keyed on the whole text. -/

namespace ZTG

variable {svc : HashcashDeps} {payload : Buffer} {nonce : String}

theorem sextet_pad : Base64.sextet '=' = none :=
  Base64.sextet_of_not_mem (Base64.not_letter (by decide)) (by decide)

theorem splitNonce_snoc {s payloadB64 macB64 : List Char}
    (h : splitNonce s = some (payloadB64, macB64)) :
    splitNonce (s ++ ['=']) = some (payloadB64, macB64 ++ ['=']) := by
  have htake : ('=' :: s.reverse).takeWhile (· ≠ '.') = '=' :: s.reverse.takeWhile (· ≠ '.') :=
    List.takeWhile_cons_of_pos (by decide)
  have hdrop : ('=' :: s.reverse).dropWhile (· ≠ '.') = s.reverse.dropWhile (· ≠ '.') :=
    List.dropWhile_cons_of_pos (by decide)
  unfold splitNonce at h ⊢
  rw [List.reverse_append, List.reverse_singleton, List.singleton_append, htake, hdrop,
    List.reverse_cons]
  split at h
  · cases h
  · dsimp only at h ⊢
    split_ifs at h with hempty
    cases h
    have hrest := (not_or.mp hempty).1
    simp [hrest]

/-- Every text that passes also passes with a padding character after it. -/
theorem openNonce_snoc (h : openNonce svc nonce = .ok payload) :
    openNonce svc (nonce ++ "=") = .ok payload := by
  unfold openNonce at h ⊢
  rw [String.toList_append]
  split at h
  · cases h
  · rename_i payloadB64 macB64 hsplit
    have hsplit' : splitNonce (nonce.toList ++ "=".toList) = some (payloadB64, macB64 ++ ['=']) :=
      splitNonce_snoc hsplit
    rw [hsplit']
    dsimp only at h ⊢
    rw [Base64.decode_snoc macB64 sextet_pad]
    exact h

/-- the text `issueChallenge` would give for the payload, padded so that it is never empty -/
theorem openNonce_padded (svc : HashcashDeps) (payload : Buffer) :
    openNonce svc (String.ofList (Base64.encode Base64.url payload ++ ['='] ++
      '.' :: Base64.encode Base64.url (svc.mac payload))) = .ok payload := by
  refine openNonce_of_decode svc ?_ (decode_url _ _) (by simp)
    (Base64.encode_ne_nil (mac_ne_nil svc payload)) (dot_notMem_encode _)
  rw [Base64.decode_snoc _ sextet_pad, decode_url]

/-- No payload has exactly one nonce: for none of them do the texts that pass the parse and the
HMAC check agree. -/
theorem nonce_not_canonical (svc : HashcashDeps) (payload : Buffer) :
    ¬ ∀ n₁ n₂ : String, openNonce svc n₁ = .ok payload → openNonce svc n₂ = .ok payload →
      n₁ = n₂ := by
  intro h
  have hpass := openNonce_padded svc payload
  have heq := congrArg String.toList (h _ _ hpass (openNonce_snoc hpass))
  rw [String.toList_append] at heq
  simpa using congrArg List.length heq

/-- the tenths from 0 on stand for the floating point numbers of the sample service -/
def tenths (q : ℚ) : ℕ := ⌊q * 10 + 1 / 2⌋.toNat

/-- the fraction of a tenth, if any -/
def tenthText (k : ℕ) : List Char := if k = 0 then [] else ['.', Nat.digitChar k]

/-- the digit after the point, 0 without one -/
def tenthValue : List Char → ℕ
  | '.' :: d => Nat.ofDigitChars 10 d 0
  | _ => 0

def sampleNumbers : JsonText.Numbers where
  text q := Nat.toDigits 10 (tenths q / 10) ++ tenthText (tenths q % 10)
  value s := .num (((Nat.ofDigitChars 10 (s.takeWhile JsonText.digit) 0 * 10 +
    tenthValue (s.dropWhile JsonText.digit) : ℕ) : ℚ) / 10)

/-- the text issued at second 0 to `u` -/
def nonceU : String :=
  "eyJ2IjoxLCJleHAiOjEyMCwiZGlmZiI6NCwic3ViIjoidSIsImRldiI6ImQiLCJpYXQiOjB9." ++
  "KJ6vpRYqbMW32S6gqosfmIUrad9pCYSBaxz86u7ueZI"

theorem nonceU_ne_padded : nonceU ≠ nonceU ++ "=" := by
  intro h
  have hlen := congrArg String.length h
  simp at hlen

def samplePayload : Buffer :=
  Utf8.encode
    "\x7b\"v\":1,\"exp\":120,\"diff\":4,\"sub\":\"u\",\"dev\":\"d\",\"iat\":0\x7d".toList

/-- HMAC-SHA256 of the payload under the secret -/
def sampleMac : Buffer :=
  [40, 158, 175, 165, 22, 42, 108, 197, 183, 217, 46, 160, 170, 139, 31, 152, 133, 43, 105,
    223, 105, 9, 132, 129, 107, 28, 252, 234, 238, 238, 121, 146]

/-- SHA-256 of a nonce with a solution -/
def sampleDigests : List (String × Buffer) :=
  [(nonceU ++ "5", [6, 67, 236, 80, 135, 140, 120, 156, 152, 222, 46, 126, 191, 60, 211, 16, 37,
      134, 86, 47, 25, 149, 187, 54, 114, 149, 183, 75, 7, 74, 222, 197]),
    (nonceU ++ "=" ++ "7", [9, 216, 183, 134, 28, 144, 84, 251, 34, 166, 18, 145, 108, 2, 195, 237,
      39, 179, 142, 32, 37, 25, 215, 45, 205, 93, 104, 108, 126, 12, 250, 35])]

def sampleHashcash (capacity : ℚ) : HashcashDeps where
  cfg := { hmacSecret := "aaaaaaaaaaaaaaaaaaaaaaaaaaaaaaaaaaaaaaaaaaaaaaaaaaaaaaaaaaaaaaaa",
           challengeTtlMs := 120000, usedNonceCapacity := .num capacity, difficultyMin := 4,
           difficultyMax := 4 }
  hmacSha256 _ msg := if msg = samplePayload then sampleMac else List.replicate 32 0
  hmacSha256_length _ msg := by split <;> rfl
  sha256 msg :=
    ((sampleDigests.find? fun x => Utf8.encode x.1.toList = msg).map Prod.snd).getD
      (List.replicate 32 255)
  base64Ends c := c = '='
  fl q := (tenths q : ℚ) / 10
  numbers := sampleNumbers
  numToString
    | .num q => String.ofList (sampleNumbers.text q)
    | .nan => "NaN"
    | .posInf => "Infinity"
    | .negInf => "-Infinity"
  observe _ := none

theorem tenths_nat (n : ℕ) : tenths n = n * 10 := by
  have hfloor : ⌊(n : ℚ) * 10 + 1 / 2⌋ = ((n * 10 : ℕ) : ℤ) := by
    rw [Int.floor_eq_iff]
    push_cast
    constructor <;> linarith
  rw [tenths, hfloor, Int.toNat_natCast]

section

variable {capacity : ℚ}

theorem sample_fl_nat (n : ℕ) : (sampleHashcash capacity).fl n = n := by
  show ((tenths n : ℕ) : ℚ) / 10 = n
  rw [tenths_nat]
  push_cast
  ring

theorem sample_difficulty (q : ℚ) :
    difficultyForScore (sampleHashcash capacity).fl (.num q)
      (sampleHashcash capacity).cfg.difficultyMin (sampleHashcash capacity).cfg.difficultyMax =
        .num 4 := by
  have hzero : (sampleHashcash capacity).fl 0 = 0 := sample_fl_nat 0
  have hfour : (sampleHashcash capacity).fl 4 = 4 := sample_fl_nat 4
  have hround : ⌊(4 : ℚ) + 1 / 2⌋ = 4 := by norm_num
  show difficultyForScore (sampleHashcash capacity).fl (.num q) 4 4 = .num 4
  simp only [difficultyForScore, rawDifficulty, sub_self, hzero, mul_zero, zero_div, add_zero,
    hfour, hround]
  norm_num [JsNum.lt]

theorem sample_payload :
    (newIssue (sampleHashcash capacity) 0 "u" "d" (.num (17 / 20))).payload = samplePayload := by
  have hfixed : (newIssue (sampleHashcash 0) 0 "u" "d" (.num (17 / 20))).payload =
      samplePayload := by decide +kernel
  exact hfixed

theorem sample_mac : (sampleHashcash capacity).mac samplePayload = sampleMac := by
  show (if samplePayload = samplePayload then sampleMac else List.replicate 32 0) = sampleMac
  rw [if_pos rfl]

theorem nonceU_eq : nonceU = String.ofList
    (nonceText samplePayload ((sampleHashcash capacity).mac samplePayload)) := by
  rw [sample_mac]
  decide +kernel

theorem sample_issued :
    (newIssue (sampleHashcash capacity) 0 "u" "d" (.num (17 / 20))).nonce = nonceU := by
  rw [@nonceU_eq capacity, ← @sample_payload capacity]
  rfl

theorem sample_open : openNonce (sampleHashcash capacity) nonceU = .ok samplePayload := by
  rw [@nonceU_eq capacity]
  exact openNonce_nonceText _ (by decide)

/-- The digest of a text is looked up. -/
theorem hashSolution_sample (nonce solution : String) :
    hashSolution (sampleHashcash capacity) nonce solution =
      ((sampleDigests.find? fun x => x.1.toList = nonce.toList ++ solution.toList).map
        Prod.snd).getD (List.replicate 32 255) := by
  have hinj : ∀ s s' : List Char, Utf8.encode s = Utf8.encode s' ↔ s = s' := by
    intro s s'
    refine ⟨fun h => ?_, congrArg Utf8.encode⟩
    rw [← Utf8.decode_encode s, h, Utf8.decode_encode]
  simp only [hashSolution, sampleHashcash, hinj]

theorem zeros_five :
    4 ≤ countLeadingZeroBits (hashSolution (sampleHashcash capacity) nonceU "5") := by
  have hdigest : hashSolution (sampleHashcash capacity) nonceU "5" =
      (sampleDigests.map Prod.snd)[0]! := by
    rw [hashSolution_sample]
    simp [sampleDigests, String.toList_append]
  rw [hdigest]
  decide

theorem zeros_seven :
    4 ≤ countLeadingZeroBits (hashSolution (sampleHashcash capacity) (nonceU ++ "=") "7") := by
  have hdigest : hashSolution (sampleHashcash capacity) (nonceU ++ "=") "7" =
      (sampleDigests.map Prod.snd)[1]! := by
    rw [hashSolution_sample]
    simp [sampleDigests, String.toList_append]
  rw [hdigest]
  decide

def sampleNoncePayload : NoncePayload :=
  { exp := .num 120, diff := .num 4, iat := .num 0, sub := JsonText.units "u".toList,
    dev := JsonText.units "d".toList }

theorem sample_read :
    readPayload (sampleHashcash capacity) samplePayload = some sampleNoncePayload := by
  have hfixed : readPayload (sampleHashcash 0) samplePayload = some sampleNoncePayload := by
    decide +kernel
  unfold readPayload at hfixed ⊢
  exact hfixed

/-- Before second 120, a text of the challenge that is not in the store is redeemed by a solution
with four zero bits. -/
theorem sample_redeemed {st : HashcashState} {t : VerifyTicks} {nonce solution : String}
    {store : UsedNonceStore.Store}
    (hopen : openNonce (sampleHashcash capacity) nonce = .ok samplePayload)
    (hlen : 1 ≤ (JsonText.units solution.toList).length ∧
      (JsonText.units solution.toList).length ≤ 256)
    (hlive : expirySecond st t < 120)
    (hhas : UsedNonceStore.has st.store (st.now + t.expiry + t.store) nonce = (false, store))
    (hzeros : 4 ≤ countLeadingZeroBits (hashSolution (sampleHashcash capacity) nonce solution)) :
    let r := verifySolution (sampleHashcash capacity) st t nonce solution (.num (17 / 20)) "u" "d"
    r.1 = .ok (.ok (.num 0)) ∧
      r.2.store = UsedNonceStore.add store (.num capacity) nonce (.num 120) ∧
      r.2.now = st.now + t.expiry + t.store := by
  refine verifySolution_ok hlen (payloadOf_of_open hopen sample_read) ⟨rfl, rfl⟩ ?_ ?_ hhas ?_ rfl
  · have hsec : ((expirySecond st t : ℕ) : ℚ) < 120 := by exact_mod_cast hlive
    exact JsNum.le_num_eq_false hsec
  · rw [sample_difficulty]
    decide
  · have hbits : (4 : ℚ) ≤
        countLeadingZeroBits (hashSolution (sampleHashcash capacity) nonce solution) := by
      exact_mod_cast hzeros
    exact JsNum.lt_num_eq_false hbits

/-- The text is redeemed, and at once the padded text too. -/
theorem sample_redeemed_both {st : HashcashState}
    {first second : Except Err VerifyResult × HashcashState}
    (hfirst : first =
      verifySolution (sampleHashcash capacity) st {} nonceU "5" (.num (17 / 20)) "u" "d")
    (hsecond : second = verifySolution (sampleHashcash capacity) first.2 {} (nonceU ++ "=") "7"
      (.num (17 / 20)) "u" "d")
    (hnow : st.now = 0) (hstore : st.store = .empty) :
    (first.1 = .ok (.ok (.num 0)) ∧ first.2.now = 0 ∧
      first.2.store = UsedNonceStore.add .empty (.num capacity) nonceU (.num 120)) ∧
    (second.1 = .ok (.ok (.num 0)) ∧ second.2.now = 0 ∧
      second.2.store =
        UsedNonceStore.add first.2.store (.num capacity) (nonceU ++ "=") (.num 120)) := by
  have hhas : UsedNonceStore.has st.store (st.now + 0 + 0) nonceU = (false, .empty) := by
    rw [hstore]
    rfl
  obtain ⟨hok, hadded, hlater⟩ := @sample_redeemed capacity st {} nonceU "5" .empty sample_open
    (by decide) (by rw [expirySecond, hnow]; decide) hhas zeros_five
  rw [← hfirst] at hok hadded hlater
  have hzero : first.2.now = 0 := hlater.trans hnow
  have habsent : first.2.store.get (nonceU ++ "=") = none := by
    rw [hadded, JsMap.get_eq_none, UsedNonceStore.add_entries rfl, JsMap.empty]
    simp
  obtain ⟨hok', hadded', hlater'⟩ := @sample_redeemed capacity first.2 {} (nonceU ++ "=") "7"
    first.2.store (openNonce_snoc sample_open) (by decide)
    (by rw [expirySecond, hzero]; decide) (UsedNonceStore.has_of_absent habsent) zeros_seven
  rw [← hsecond] at hok' hadded' hlater'
  exact ⟨⟨hok, hzero, hadded⟩, hok', hlater'.trans hzero, hadded'⟩

end

/-- Two texts of one challenge, and each is redeemed. -/
theorem challenge_redeemed_twice :
    let svc := sampleHashcash 10000
    let st := hashcashStep svc { now := 0 } (.issue 0 "u" "d" (.num (17 / 20)))
    let first := verifySolution svc st {} nonceU "5" (.num (17 / 20)) "u" "d"
    let second := verifySolution svc first.2 {} (nonceU ++ "=") "7" (.num (17 / 20)) "u" "d"
    st.issued.map (·.nonce) = [nonceU] ∧ nonceU ≠ nonceU ++ "=" ∧
      (∃ payload, openNonce svc nonceU = .ok payload ∧
        openNonce svc (nonceU ++ "=") = .ok payload) ∧
      (∃ iat, first.1 = .ok (.ok iat)) ∧ ∃ iat, second.1 = .ok (.ok iat) := by
  intro svc st first second
  have hissued : st.issued.map (·.nonce) = [nonceU] := by
    rw [← @sample_issued 10000]
    rfl
  obtain ⟨⟨hfirst, -⟩, hsecond, -⟩ := @sample_redeemed_both _ st first second rfl rfl rfl rfl
  exact ⟨hissued, nonceU_ne_padded, ⟨_, sample_open, openNonce_snoc sample_open⟩, ⟨_, hfirst⟩, _, hsecond⟩

end ZTG
