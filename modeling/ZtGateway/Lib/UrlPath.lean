import ZtGateway.Lib.UrlOrigin

/-! Normal paths. The path of a parsed special URL has only plain segments, and a path that is
already made of plain segments is parsed to itself. -/

namespace ZTG

variable {parseHost : HostParser} {u base : Url} {scheme : Scheme}

/-- a character that the path state keeps as it is, other than a slash of either kind -/
def plainChar (c : Char) : Bool := !pathSet c && c != '/' && c != '\\'

/-- a segment as the path state leaves it -/
structure PlainSegment (s : List Char) : Prop where
  chars : ∀ c ∈ s, plainChar c = true
  singleDot : isSingleDot s = false
  doubleDot : isDoubleDot s = false

theorem plainSegment_nil : PlainSegment [] := ⟨by simp, rfl, rfl⟩

theorem plainChar_not_pathSet {c : Char} (h : plainChar c = true) : pathSet c = false := by
  simp only [plainChar, Bool.and_eq_true, Bool.not_eq_true'] at h
  exact h.1.1

theorem plainChar_not_slash {c : Char} (h : plainChar c = true) (scheme : Scheme) :
    scheme.isSlash c = false := by
  simp only [plainChar, Bool.and_eq_true, bne_iff_ne] at h
  simp [Scheme.isSlash, h.1.2, h.2]

theorem plainChar_ne {c d : Char} (h : plainChar c = true) (hd : plainChar d = false) : c ≠ d := by
  rintro rfl
  simp [h] at hd

theorem plainChar_not_end {c : Char} (h : plainChar c = true) (scheme : Scheme) :
    scheme.endsAuthority c = false := by
  have hq : c ≠ '?' := plainChar_ne h rfl
  have hf : c ≠ '#' := plainChar_ne h rfl
  simp [Scheme.endsAuthority, plainChar_not_slash h scheme, hq, hf]

theorem plainChar_not_blank {c : Char} (h : plainChar c = true) : isC0OrSpace c = false := by
  have hset := plainChar_not_pathSet h
  have hspace : c ≠ ' ' := plainChar_ne h rfl
  simp only [pathSet, querySet, c0ControlSet, Bool.or_eq_false_iff, decide_eq_false_iff_not] at hset
  have hne : c.toNat ≠ 0x20 := fun h => hspace (Char.toNat_inj.mp h)
  simp only [isC0OrSpace, decide_eq_false_iff_not]
  omega

theorem percentEncode_of_not {set : Char → Bool} {s : List Char} (h : ∀ c ∈ s, set c = false) :
    percentEncode set s = s := by
  induction s with
  | nil => rfl
  | cons c s ih =>
    have hs : percentEncode set s = s := ih fun d hd => h d (List.mem_cons_of_mem c hd)
    simp [percentEncode, percentEncodeChar, h c] at hs ⊢
    exact hs

theorem PlainSegment.encode {s : List Char} (h : PlainSegment s) : percentEncode pathSet s = s :=
  percentEncode_of_not fun c hc => plainChar_not_pathSet (h.chars c hc)

/-! What the path state builds. -/

theorem normalizeDrive_of_not_file (h : scheme ≠ .file) (path : List (List Char)) (s : List Char) :
    normalizeDrive scheme path s = s := by simp [normalizeDrive, h]

theorem shorten_of_not_file (h : scheme ≠ .file) (path : List (List Char)) :
    shorten scheme path = path.dropLast := by
  simp [shorten, h]

theorem pushSegment_of_not_dot (hfile : scheme ≠ .file) (path : List (List Char)) {s : List Char}
    (h₁ : isSingleDot s = false) (h₂ : isDoubleDot s = false) (last : Bool) :
    pushSegment scheme path s last = path ++ [s] := by
  simp [pushSegment, h₁, h₂, normalizeDrive_of_not_file hfile]

theorem pushSegments_cons (path : List (List Char)) (s : List Char) {l : List (List Char)}
    (hl : l ≠ []) :
    pushSegments scheme path (s :: l) =
      pushSegments scheme (pushSegment scheme path (percentEncode pathSet s) false) l := by
  rw [pushSegments]
  exact hl

/-- Plain segments are appended as they are. -/
theorem pushSegments_plain (hfile : scheme ≠ .file) {l : List (List Char)}
    (hl : ∀ s ∈ l, PlainSegment s) (path : List (List Char)) :
    pushSegments scheme path l = path ++ l := by
  induction l generalizing path with
  | nil => simp [pushSegments]
  | cons s l ih =>
    have hs := hl s List.mem_cons_self
    have hpush := fun last => pushSegment_of_not_dot hfile path hs.singleDot hs.doubleDot last
    cases l with
    | nil => simp [pushSegments, hs.encode, hpush]
    | cons t l =>
      rw [pushSegments_cons _ _ (by simp), hs.encode, hpush,
        ih fun x hx => hl x (List.mem_cons_of_mem s hx)]
      simp

/-- One pushed segment makes the path longer by one at most. -/
theorem length_pushSegment_le (path : List (List Char)) (s : List Char) (last : Bool) :
    (pushSegment scheme path s last).length ≤ path.length + 1 := by
  have hshort : (shorten scheme path).length ≤ path.length := by
    unfold shorten
    split_ifs
    · exact le_rfl
    · simp
  unfold pushSegment
  split_ifs <;> simp <;> omega

theorem length_pushSegments_le (path l : List (List Char)) :
    (pushSegments scheme path l).length ≤ path.length + l.length := by
  induction l generalizing path with
  | nil => simp [pushSegments]
  | cons s l ih =>
    cases l with
    | nil => exact length_pushSegment_le path _ true
    | cons t l =>
      have hpush := @length_pushSegment_le scheme path (percentEncode pathSet s) false
      have := ih (pushSegment scheme path (percentEncode pathSet s) false)
      rw [pushSegments_cons _ _ (by simp)]
      simp only [List.length_cons] at this ⊢
      omega

/-- The last segment always leaves something, be it empty. -/
theorem pushSegments_ne_nil (path : List (List Char)) {l : List (List Char)} (hl : l ≠ []) :
    pushSegments scheme path l ≠ [] := by
  induction l generalizing path with
  | nil => exact absurd rfl hl
  | cons s l ih =>
    cases l with
    | nil =>
      rw [pushSegments]
      unfold pushSegment
      split_ifs <;> simp_all
    | cons t l =>
      rw [pushSegments_cons _ _ (by simp)]
      exact ih _ (by simp)

theorem hexDigits_toList : "0123456789ABCDEF".toList =
    ['0', '1', '2', '3', '4', '5', '6', '7', '8', '9', 'A', 'B', 'C', 'D', 'E', 'F'] :=
  String.toList_ofList

theorem hexDigit_of_all {p : Char → Bool} (h : ['0', '1', '2', '3', '4', '5', '6', '7', '8', '9',
    'A', 'B', 'C', 'D', 'E', 'F'].all p = true) (n : ℕ) : p (hexDigit n) = true := by
  rw [hexDigit, hexDigits_toList, List.getD_eq_getElem?_getD]
  cases hn : ['0', '1', '2', '3', '4', '5', '6', '7', '8', '9', 'A', 'B', 'C', 'D', 'E', 'F'][n]? with
  | none => exact List.all_eq_true.mp h '0' List.mem_cons_self
  | some c => exact List.all_eq_true.mp h c (List.mem_of_getElem? hn)

theorem hexDigit_plain (n : ℕ) : plainChar (hexDigit n) = true := hexDigit_of_all rfl n

/-- A character is there because it was not to be encoded, or it is part of an escape. -/
theorem mem_percentEncode {set : Char → Bool} {s : List Char} {c : Char}
    (hc : c ∈ percentEncode set s) :
    c ∈ s ∧ set c = false ∨ c = '%' ∨ ∃ n, c = hexDigit n := by
  obtain ⟨d, hd, hc⟩ := List.mem_flatMap.mp hc
  unfold percentEncodeChar at hc
  split_ifs at hc with hset
  · obtain ⟨b, -, hb⟩ := List.mem_flatMap.mp hc
    simp only [percentEncodeByte, List.mem_cons, List.not_mem_nil, or_false] at hb
    rcases hb with rfl | rfl | rfl
    · exact .inr (.inl rfl)
    · exact .inr (.inr ⟨_, rfl⟩)
    · exact .inr (.inr ⟨_, rfl⟩)
  · obtain rfl := List.mem_singleton.mp hc
    exact .inl ⟨hd, Bool.not_eq_true _ ▸ hset⟩

theorem percentEncode_ne_nil {set : Char → Bool} {s : List Char} (h : s ≠ []) :
    percentEncode set s ≠ [] := by
  obtain ⟨c, s, rfl⟩ := List.exists_cons_of_ne_nil h
  have hc : percentEncodeChar set c ≠ [] := by
    unfold percentEncodeChar
    split_ifs
    · have hlen : (String.utf8EncodeChar c).length ≠ 0 := by
        rw [String.length_utf8EncodeChar]
        exact c.utf8Size_pos.ne'
      obtain ⟨b, bs, hb⟩ :=
        List.exists_cons_of_ne_nil (List.ne_nil_of_length_pos (Nat.pos_of_ne_zero hlen))
      simp [hb, percentEncodeByte]
    · simp
  simp [percentEncode, hc]

/-- Encoding leaves nothing that would have to be encoded. -/
theorem percentEncode_plain {s : List Char} (hs : ∀ c ∈ s, c ≠ '/' ∧ c ≠ '\\') :
    ∀ c ∈ percentEncode pathSet s, plainChar c = true := by
  intro c hc
  rcases mem_percentEncode hc with ⟨hmem, hset⟩ | rfl | ⟨n, rfl⟩
  · simp [plainChar, hset, hs c hmem]
  · rfl
  · exact hexDigit_plain n

theorem pushSegment_keeps_plain (hfile : scheme ≠ .file) {path : List (List Char)}
    (hpath : ∀ s ∈ path, PlainSegment s) {s : List Char} (hs : ∀ c ∈ s, c ≠ '/' ∧ c ≠ '\\')
    (last : Bool) :
    ∀ x ∈ pushSegment scheme path (percentEncode pathSet s) last, PlainSegment x := by
  have hshort : ∀ x ∈ shorten scheme path, PlainSegment x := by
    rw [shorten_of_not_file hfile]
    exact fun x hx => hpath x (List.mem_of_mem_dropLast hx)
  unfold pushSegment
  rw [normalizeDrive_of_not_file hfile]
  intro x hx
  split_ifs at hx with h₂ hlast h₁ hlast
  · rcases List.mem_append.mp hx with hx | hx
    · exact hshort x hx
    · obtain rfl := List.mem_singleton.mp hx
      exact plainSegment_nil
  · exact hshort x hx
  · rcases List.mem_append.mp hx with hx | hx
    · exact hpath x hx
    · obtain rfl := List.mem_singleton.mp hx
      exact plainSegment_nil
  · exact hpath x hx
  · rcases List.mem_append.mp hx with hx | hx
    · exact hpath x hx
    · obtain rfl := List.mem_singleton.mp hx
      exact ⟨percentEncode_plain hs, by simpa using h₁, by simpa using h₂⟩

theorem pushSegments_keeps_plain (hfile : scheme ≠ .file) {l : List (List Char)}
    (hl : ∀ s ∈ l, ∀ c ∈ s, c ≠ '/' ∧ c ≠ '\\') {path : List (List Char)}
    (hpath : ∀ s ∈ path, PlainSegment s) : ∀ x ∈ pushSegments scheme path l, PlainSegment x := by
  induction l generalizing path with
  | nil => exact hpath
  | cons s l ih =>
    have hs := hl s List.mem_cons_self
    cases l with
    | nil => exact pushSegment_keeps_plain hfile hpath hs true
    | cons t l =>
      rw [pushSegments_cons _ _ (by simp)]
      exact ih (fun x hx => hl x (List.mem_cons_of_mem s hx))
        (pushSegment_keeps_plain hfile hpath hs false)

/-! Splitting and joining. -/

theorem forall_splitOnP (p : Char → Bool) (t : List Char) :
    ∀ s ∈ t.splitOnP p, ∀ c ∈ s, p c = false := by
  induction t with
  | nil => simp
  | cons c t ih =>
    rw [List.splitOnP_cons_eq_if_modifyHead]
    by_cases hc : p c = true
    · simpa [hc] using ih
    · cases h : t.splitOnP p with
      | nil => exact absurd h (List.splitOnP_ne_nil p t)
      | cons s l =>
        rw [h] at ih
        simpa [hc] using ih

theorem splitOnP_congr {p q : Char → Bool} {t : List Char} (h : ∀ c ∈ t, p c = q c) :
    t.splitOnP p = t.splitOnP q := by
  induction t with
  | nil => simp
  | cons c t ih =>
    rw [List.splitOnP_cons_eq_if_modifyHead, List.splitOnP_cons_eq_if_modifyHead,
      h c List.mem_cons_self, ih fun d hd => h d (List.mem_cons_of_mem c hd)]

/-- the text of a list of segments, as `pathname` writes it -/
theorem flatMap_slash {l : List (List Char)} (hl : l ≠ []) :
    (l.flatMap fun s => '/' :: s) = '/' :: ['/'].intercalate l := by
  induction l with
  | nil => exact absurd rfl hl
  | cons s l ih =>
    cases l with
    | nil => simp
    | cons t l => simp [List.intercalate_cons_cons, ih (by simp)]

theorem flatMap_splitOn (t : List Char) :
    ((t.splitOn '/').flatMap fun s => '/' :: s) = '/' :: t := by
  rw [flatMap_slash (by simp), List.intercalate_splitOn]

theorem splitOn_flatMap {l : List (List Char)} (h : ∀ s ∈ l, '/' ∉ s) :
    (l.flatMap fun s => '/' :: s).splitOn '/' = [] :: l := by
  cases l with
  | nil => simp
  | cons s l =>
    rw [flatMap_slash (by simp), List.splitOn_cons_eq_if_modifyHead,
      List.splitOn_intercalate '/' h (by simp)]
    simp

/-- Plain text has the segments a special URL sees in it. -/
theorem splitOnP_of_plain {t : List Char} (h : ∀ s ∈ t.splitOn '/', PlainSegment s) :
    t.splitOnP scheme.isSlash = t.splitOn '/' := by
  rw [List.splitOn_eq_splitOnP]
  apply splitOnP_congr
  intro c hc
  have hmem : c ∈ (t.splitOn '/').flatMap fun s => '/' :: s :=
    flatMap_splitOn t ▸ List.mem_cons_of_mem _ hc
  obtain ⟨s, hs, hcs⟩ := List.mem_flatMap.mp hmem
  rcases List.mem_cons.mp hcs with rfl | hcs
  · simp [Scheme.isSlash]
  · have := plainChar_not_slash ((h s hs).chars c hcs)
    rw [this scheme]
    have := this .http
    simp only [Scheme.isSlash, Bool.or_eq_false_iff] at this
    exact this.1.symm

/-- The characters of a path of plain segments. -/
theorem mem_plain_path {l : List (List Char)} (hl : ∀ s ∈ l, PlainSegment s) {c : Char}
    (hc : c ∈ l.flatMap fun s => '/' :: s) : c = '/' ∨ plainChar c = true := by
  obtain ⟨s, hs, hcs⟩ := List.mem_flatMap.mp hc
  rcases List.mem_cons.mp hcs with rfl | hcs
  · exact .inl rfl
  · exact .inr ((hl s hs).chars c hcs)

/-- The characters of a plain remainder. -/
theorem mem_plain_text {t : List Char} (h : ∀ s ∈ t.splitOn '/', PlainSegment s) {c : Char}
    (hc : c ∈ t) : isC0OrSpace c = false ∧ c ≠ '?' ∧ c ≠ '#' := by
  have hmem : c ∈ (t.splitOn '/').flatMap fun s => '/' :: s :=
    flatMap_splitOn t ▸ List.mem_cons_of_mem _ hc
  rcases mem_plain_path h hmem with rfl | hplain
  · decide
  · exact ⟨plainChar_not_blank hplain, plainChar_ne hplain rfl,
      plainChar_ne hplain rfl⟩

theorem plain_cons {r : List Char} :
    (∀ s ∈ ('/' :: r).splitOn '/', PlainSegment s) ↔ ∀ s ∈ r.splitOn '/', PlainSegment s := by
  rw [List.splitOn_cons_eq_if_modifyHead]
  simp [plainSegment_nil]

end ZTG
