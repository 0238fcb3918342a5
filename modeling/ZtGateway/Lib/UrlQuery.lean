import ZtGateway.Lib.UrlReference

/-! A reference that is a path from the root with a query: what is resolved against does not keep
its own path, and the query is kept where the parser has nothing to encode in it. -/

namespace ZTG

variable {parseHost : HostParser} {u base : Url} {tail : List Char}

/-- the search that a query tail asks for: a lone `?` is no query -/
def tailSearch (tail : List Char) : List Char := if tail = ['?'] then [] else tail

/-- a character that the parser keeps in the query of a special URL -/
def queryChar (c : Char) : Bool := !specialQuerySet c

theorem hexDigit_queryChar (n : ℕ) : queryChar (hexDigit n) = true := hexDigit_of_all rfl n

/-- Encoding leaves nothing that would have to be encoded. -/
theorem percentEncode_query (s : List Char) :
    ∀ c ∈ percentEncode specialQuerySet s, queryChar c = true := by
  intro c hc
  rcases mem_percentEncode hc with ⟨-, hset⟩ | rfl | ⟨n, rfl⟩
  · simp [queryChar, hset]
  · rfl
  · exact hexDigit_queryChar n

theorem queryChar_not_blank {c : Char} (h : queryChar c = true) : isC0OrSpace c = false := by
  by_contra hblank
  have hle : c.toNat ≤ 0x20 := by simpa [isC0OrSpace] using hblank
  have hset : specialQuerySet c = true := by
    rcases Nat.lt_or_eq_of_le hle with hlt | heq
    · have hc0 : c0ControlSet c = true := by
        simp only [c0ControlSet, Bool.or_eq_true, decide_eq_true_eq]
        omega
      simp [specialQuerySet, querySet, hc0]
    · obtain rfl : c = ' ' := Char.toNat_inj.mp heq
      rfl
  simp [queryChar, hset] at h

theorem queryChar_ne_hash {c : Char} (h : queryChar c = true) : c ≠ '#' := by
  rintro rfl
  exact absurd h (by decide)

theorem percentEncode_queryChars {s : List Char} (h : ∀ c ∈ s, queryChar c = true) :
    percentEncode specialQuerySet s = s :=
  percentEncode_of_not fun c hc => by simpa [queryChar] using h c hc

/-- what the query state makes of a query tail -/
theorem queryState_search (hs : u.scheme.special = true) (hu : u.query = none)
    (htail : QueryTail tail) :
    (queryState u tail).search = [] ∧ tail = [] ∨ ∃ q, tail = '?' :: q ∧
      (queryState u tail).search =
        tailSearch ('?' :: percentEncode specialQuerySet (q.takeWhile (· != '#'))) := by
  rcases htail with rfl | ⟨q, rfl⟩
  · exact .inl ⟨by simp [queryState, Url.search, hu], rfl⟩
  · refine .inr ⟨q, rfl, ?_⟩
    have hquery : (queryState u ('?' :: q)).query =
        some (percentEncode specialQuerySet (q.takeWhile (· != '#'))) := by
      simp only [queryState, hs, if_true]
      split
      · rfl
      · rfl
    unfold Url.search
    rw [hquery]
    cases percentEncode specialQuerySet (q.takeWhile (· != '#')) with
    | nil => rfl
    | cons c s => simp [tailSearch]

/-- Whatever the tail, the search of the result has nothing left to encode. -/
theorem queryState_search_chars (hs : u.scheme.special = true) (hu : u.query = none)
    (htail : QueryTail tail) : ∀ c ∈ (queryState u tail).search, queryChar c = true := by
  have hmark : queryChar '?' = true := rfl
  rcases queryState_search hs hu htail with ⟨h, -⟩ | ⟨q, -, h⟩
  · simp [h]
  · rw [h, tailSearch]
    split_ifs
    · simp
    · intro c hc
      rcases List.mem_cons.mp hc with rfl | hc
      · exact hmark
      · exact percentEncode_query _ c hc

theorem cleanTail_queryChars (h : ∀ c ∈ tail, queryChar c = true) : cleanTail tail = tail := by
  have hclean := cleanTail_append (fun c hc => queryChar_not_blank (h c hc)) []
  rwa [List.append_nil, show cleanTail [] = [] from rfl, List.append_nil] at hclean

/-- Nothing to encode: the query is taken over, and there is no fragment. -/
theorem queryState_kept (hs : u.scheme.special = true) (hu : u.query = none)
    (hfragment : u.fragment = none) (htail : QueryTail tail)
    (h : ∀ c ∈ tail, queryChar c = true) :
    (queryState u tail).search = tailSearch tail ∧ (queryState u tail).fragment = none := by
  rcases htail with rfl | ⟨q, rfl⟩
  · simp [queryState, Url.search, hu, hfragment, tailSearch]
  · have hq : ∀ c ∈ q, queryChar c = true := fun c hc => h c (List.mem_cons_of_mem _ hc)
    have hne : ∀ c ∈ q, (c != '#') = true := fun c hc => by simpa using queryChar_ne_hash (hq c hc)
    have htake : q.takeWhile (· != '#') = q := List.takeWhile_eq_self_iff.mpr hne
    have hdrop : q.dropWhile (· != '#') = [] := List.dropWhile_eq_nil_iff.mpr hne
    constructor
    · rcases queryState_search hs hu (.inr ⟨q, rfl⟩) with ⟨-, hnil⟩ | ⟨q', hq', hsearch⟩
      · cases hnil
      · obtain rfl := (List.cons.inj hq').2
        rw [hsearch, htake, percentEncode_queryChars hq]
    · simp only [queryState, hdrop, hfragment]

/-- The parser keeps a query exactly if it has nothing to encode in it. -/
theorem queryState_search_iff (hs : u.scheme.special = true) (hu : u.query = none)
    (hfragment : u.fragment = none) (htail : QueryTail tail) :
    (queryState u (cleanTail tail)).search = tailSearch tail ↔ ∀ c ∈ tail, queryChar c = true := by
  constructor
  · intro h
    have hchars := queryState_search_chars hs hu htail.clean
    rw [h, tailSearch] at hchars
    split_ifs at hchars with hmark
    · rw [hmark]
      exact List.forall_mem_singleton.mpr rfl
    · exact hchars
  · intro h
    rw [cleanTail_queryChars h]
    exact (queryState_kept hs hu hfragment htail h).1

/-- A search that a parse has produced is taken over by the next one. -/
theorem tailSearch_search (u : Url) : tailSearch u.search = u.search := by
  unfold Url.search
  split
  · rfl
  · rfl
  · next q hne _ => exact if_neg (by simpa using hne)

end ZTG
