import ZtGateway.Lib.UrlPath

/-! References that start with a slash. One slash: the text up to the query becomes the path, and
plain text is kept as it is. Two slashes: the first segment with something in it is the
authority. -/

namespace ZTG

variable {parseHost : HostParser} {u base : Url} {scheme : Scheme}

/-! The parser on a reference that starts with a slash. -/

/-- what the parser leaves of the end of its input -/
def cleanTail (s : List Char) : List Char :=
  (s.rdropWhile isC0OrSpace).filter fun c => !isTabOrNewline c

theorem isTabOrNewline_of_not_c0 {c : Char} (h : isC0OrSpace c = false) :
    isTabOrNewline c = false := by
  unfold isTabOrNewline
  rcases eq_or_ne c '\t' with rfl | h₁
  · simp [isC0OrSpace] at h
  rcases eq_or_ne c '\n' with rfl | h₂
  · simp [isC0OrSpace] at h
  rcases eq_or_ne c '\r' with rfl | h₃
  · simp [isC0OrSpace] at h
  simp [h₁, h₂, h₃]

theorem cleanTail_append {t : List Char} (ht : ∀ c ∈ t, isC0OrSpace c = false) (tail : List Char) :
    cleanTail (t ++ tail) = t ++ cleanTail tail := by
  have hfilter : (t.filter fun c => !isTabOrNewline c) = t :=
    List.filter_eq_self.mpr fun c hc => by simp [isTabOrNewline_of_not_c0 (ht c hc)]
  have hlast : t.reverse.dropWhile isC0OrSpace = t.reverse := by
    rcases List.eq_nil_or_concat t with rfl | ⟨t, c, rfl⟩
    · rfl
    · simp [ht c]
  have hrdrop : (t ++ tail).rdropWhile isC0OrSpace = t ++ tail.rdropWhile isC0OrSpace := by
    unfold List.rdropWhile
    rw [List.reverse_append, List.dropWhile_append]
    split_ifs with h
    · rw [List.isEmpty_iff.mp h, hlast]
      simp
    · simp
  rw [cleanTail, hrdrop, List.filter_append, hfilter, cleanTail]

theorem cleanInput_append {t : List Char} (hne : t ≠ []) (ht : ∀ c ∈ t, isC0OrSpace c = false)
    (tail : List Char) : cleanInput (t ++ tail) = t ++ cleanTail tail := by
  have hdrop : (t ++ tail).dropWhile isC0OrSpace = t ++ tail := by
    cases t with
    | nil => exact absurd rfl hne
    | cons c t => simp [ht c]
  rw [cleanInput, hdrop]
  exact cleanTail_append ht tail

theorem cleanInput_slash (x : List Char) : cleanInput ('/' :: x) = '/' :: cleanTail x :=
  cleanInput_append (t := ['/']) (by simp) (List.forall_mem_singleton.mpr (by decide)) x

/-- Text that ends the path of a request: nothing, or a query. -/
def QueryTail (tail : List Char) : Prop := tail = [] ∨ ∃ q, tail = '?' :: q

theorem QueryTail.clean {tail : List Char} (h : QueryTail tail) : QueryTail (cleanTail tail) := by
  rcases h with rfl | ⟨q, rfl⟩
  · exact .inl rfl
  · exact .inr ⟨_, cleanTail_append (t := ['?']) (List.forall_mem_singleton.mpr (by decide)) q⟩

theorem QueryTail.search (u : Url) : QueryTail u.search := by
  unfold Url.search
  split
  · exact .inl rfl
  · exact .inl rfl
  · exact .inr ⟨_, rfl⟩

theorem QueryTail.of_dropWhile (s : List Char) : QueryTail (s.dropWhile (· != '?')) := by
  have := List.head?_dropWhile_not (· != '?') s
  cases h : s.dropWhile (· != '?') with
  | nil => exact .inl rfl
  | cons c q =>
    rw [h] at this
    obtain rfl : c = '?' := by simpa using this
    exact .inr ⟨q, rfl⟩

theorem QueryTail.takeWhile {tail t : List Char} (h : QueryTail tail)
    (ht : ∀ c ∈ t, c ≠ '?' ∧ c ≠ '#') :
    ((t ++ tail).takeWhile fun c => c != '?' && c != '#') = t := by
  rw [List.takeWhile_append_of_pos fun c hc => by simp [ht c hc]]
  rcases h with rfl | ⟨q, rfl⟩
  · simp
  · simp

theorem splitScheme_slash (rest : List Char) : splitScheme ('/' :: rest) = none := by
  have h : isSchemeChar '/' = false := by decide
  simp [splitScheme, h]

theorem parseUrl_slash (hfile : base.scheme ≠ .file) {l : List (List Char)}
    (hpath : base.path = .segments l) {input rest : List Char}
    (h : cleanInput input = '/' :: rest) :
    parseUrl parseHost (some base) input = relativeState parseHost base ('/' :: rest) := by
  simp [parseUrl, h, splitScheme_slash, noSchemeState, hpath, hfile]

/-- One slash, then text up to the query: the text becomes the path, and only scheme, credentials,
host and port are the base's. -/
theorem parseUrl_root (hfile : base.scheme ≠ .file) {l : List (List Char)}
    (hpath : base.path = .segments l) {t tail : List Char}
    (ht : ∀ c ∈ t, isC0OrSpace c = false ∧ c ≠ '?' ∧ c ≠ '#')
    (hhead : ∀ c ∈ t.head?, base.scheme.isSlash c = false) (htail : QueryTail tail) :
    parseUrl parseHost (some base) ('/' :: t ++ tail) = some (queryState
      { base with
        path := .segments (pushSegments base.scheme [] (t.splitOnP base.scheme.isSlash)),
        query := none,
        fragment := none } (cleanTail tail)) := by
  have hclean : cleanInput ('/' :: t ++ tail) = '/' :: (t ++ cleanTail tail) :=
    cleanInput_append (by simp) (by simpa [isC0OrSpace] using fun c hc => (ht c hc).1) tail
  have hslash : base.scheme.isSlash '/' = true := by simp [Scheme.isSlash]
  have hrest : ∀ d ∈ (t ++ cleanTail tail).head?, base.scheme.isSlash d = false := by
    cases t with
    | nil =>
      rcases htail.clean with h | ⟨q, h⟩
      · simp [h]
      · simp [h, Scheme.isSlash]
    | cons c t => simpa using hhead
  have htake := htail.clean.takeWhile fun c hc => (ht c hc).2
  have hdrop : (t ++ cleanTail tail).dropWhile (fun c => c != '?' && c != '#') = cleanTail tail := by
    have hsplit := List.takeWhile_append_dropWhile (p := fun c => c != '?' && c != '#')
      (l := t ++ cleanTail tail)
    rw [htake] at hsplit
    exact List.append_cancel_left hsplit
  rw [parseUrl_slash hfile hpath hclean, relativeState_slash hslash hrest, pathState, htake, hdrop]
  rfl

theorem parseUrl_path (hfile : base.scheme ≠ .file) {l : List (List Char)}
    (hpath : base.path = .segments l) {t tail : List Char}
    (ht : ∀ c ∈ t, isC0OrSpace c = false ∧ c ≠ '?' ∧ c ≠ '#')
    (hhead : ∀ c ∈ t.head?, base.scheme.isSlash c = false) (htail : QueryTail tail) :
    ∃ u, parseUrl parseHost (some base) ('/' :: t ++ tail) = some u ∧
      u.path = .segments (pushSegments base.scheme [] (t.splitOnP base.scheme.isSlash)) := by
  obtain ⟨q, f, hquery⟩ := queryState_eq
    { base with
      path := .segments (pushSegments base.scheme [] (t.splitOnP base.scheme.isSlash)),
      query := none,
      fragment := none } (cleanTail tail)
  exact ⟨_, parseUrl_root hfile hpath ht hhead htail, congrArg Url.path hquery⟩

/-- A plain path that does not start with two slashes is parsed to itself. -/
theorem parseUrl_plain (hfile : base.scheme ≠ .file) {l : List (List Char)}
    (hl : base.path = .segments l) {r tail : List Char} (hr : ∀ s ∈ r.splitOn '/', PlainSegment s)
    (hhead : r.head? ≠ some '/') (htail : QueryTail tail)
    (h : parseUrl parseHost (some base) ('/' :: r ++ tail) = some u) : u.pathname = '/' :: r := by
  have hslash : ∀ c ∈ r.head?, base.scheme.isSlash c = false := by
    intro c hc
    have hmem : c ∈ (r.splitOn '/').flatMap fun s => '/' :: s :=
      flatMap_splitOn r ▸ List.mem_cons_of_mem _ (List.mem_of_mem_head? hc)
    rcases mem_plain_path hr hmem with rfl | hplain
    · exact absurd hc hhead
    · exact plainChar_not_slash hplain _
  obtain ⟨v, hv, hpath⟩ :=
    @parseUrl_path parseHost base hfile l hl r tail (fun c hc => mem_plain_text hr hc) hslash htail
  obtain rfl := Option.some.inj (hv.symm.trans h)
  rw [Url.pathname, hpath, splitOnP_of_plain hr, pushSegments_plain hfile hr]
  exact flatMap_splitOn r

/-! The path after a slash or an authority is new: it owes nothing to the base. -/

theorem length_splitOnP (p : Char → Bool) (t : List Char) :
    (t.splitOnP p).length = t.countP p + 1 := by
  induction t with
  | nil => simp
  | cons c t ih =>
    rw [List.splitOnP_cons_eq_if_modifyHead, List.countP_cons]
    split_ifs
    · simp [ih]
    · simp [ih]

/-- the path of `u` is made of plain segments, at most `n` of them -/
def PlainPath (u : Url) (n : ℕ) : Prop :=
  ∃ l, u.path = .segments l ∧ l ≠ [] ∧ (∀ s ∈ l, PlainSegment s) ∧ l.length ≤ n

theorem pathState_plain (hs : u.scheme.special = true) (hfile : u.scheme ≠ .file)
    (hu : u.segments = []) (input : List Char) :
    PlainPath (pathState u input)
      ((input.takeWhile fun c => c != '?' && c != '#').countP u.scheme.isSlash + 1) := by
  obtain ⟨q, f, h⟩ := pathState_eq u input
  refine ⟨_, congrArg Url.path h, pushSegments_ne_nil _ (List.splitOnP_ne_nil _ _), ?_, ?_⟩
  · rw [hu]
    refine pushSegments_keeps_plain hfile (fun s hs' c hc => ?_) (by simp)
    have := forall_splitOnP _ _ s hs' c hc
    simpa [Scheme.isSlash, hs] using this
  · have := @length_pushSegments_le u.scheme u.segments
      ((input.takeWhile fun c => c != '?' && c != '#').splitOnP u.scheme.isSlash)
    simpa [length_splitOnP, hu] using this

theorem pathStartState_plain (hs : u.scheme.special = true) (hfile : u.scheme ≠ .file)
    (hu : u.segments = []) {input : List Char}
    (hinput : ∀ c ∈ input.head?, u.scheme.endsAuthority c = true) :
    PlainPath (pathStartState u input)
      (max 1 ((input.takeWhile fun c => c != '?' && c != '#').countP u.scheme.isSlash)) := by
  unfold pathStartState
  cases input with
  | nil => simpa [hs] using pathState_plain hs hfile hu []
  | cons c rest =>
    by_cases hc : u.scheme.isSlash c = true
    · have hq : c ≠ '?' ∧ c ≠ '#' := by
        constructor
        · rintro rfl
          simp [Scheme.isSlash] at hc
        · rintro rfl
          simp [Scheme.isSlash] at hc
      simp only [hc, if_true]
      simpa [hq, hc] using pathState_plain hs hfile hu rest
    · have hq : c = '?' ∨ c = '#' := by simpa [Scheme.endsAuthority, hc] using hinput c rfl
      have hstop : (c != '?' && c != '#') = false := by
        simpa [bne] using fun h : ¬c = '?' => hq.resolve_left h
      simpa [hc, hs, hstop] using pathState_plain hs hfile hu (c :: rest)

theorem authorityState_plain (hs : scheme.special = true) (hfile : scheme ≠ .file)
    {input : List Char} (h : authorityState parseHost scheme input = some u) :
    PlainPath u (max 1 (((input.dropWhile fun c => !scheme.endsAuthority c).takeWhile fun c =>
      c != '?' && c != '#').countP scheme.isSlash)) := by
  obtain ⟨a, -, rfl⟩ := Option.map_eq_some_iff.mp h
  apply pathStartState_plain hs hfile rfl
  intro c hc
  have := List.head?_dropWhile_not (fun c => !scheme.endsAuthority c) input
  rw [hc] at this
  simpa using this

/-- A reference that starts with a slash gets a path of plain segments. -/
theorem parseUrl_slash_plain (hs : base.scheme.special = true) (hfile : base.scheme ≠ .file)
    {l : List (List Char)} (hpath : base.path = .segments l) {input rest : List Char}
    (hclean : cleanInput input = '/' :: rest) (h : parseUrl parseHost (some base) input = some u) :
    ∃ n, PlainPath u n := by
  rw [parseUrl_slash hfile hpath hclean] at h
  have hslash : base.scheme.isSlash '/' = true := by simp [Scheme.isSlash]
  have hone : (∀ d ∈ rest.head?, base.scheme.isSlash d = false) → ∃ n, PlainPath u n := by
    intro hrest
    rw [relativeState_slash hslash hrest] at h
    obtain rfl := Option.some.inj h
    exact ⟨_, @pathState_plain { base with path := .segments [], query := none, fragment := none }
      hs hfile rfl rest⟩
  cases rest with
  | nil => exact hone (by simp)
  | cons d rest =>
    by_cases hd : base.scheme.isSlash d = true
    · rw [relativeState_slashes hs hslash hd] at h
      exact ⟨_, authorityState_plain hs hfile h⟩
    · exact hone (by simpa using hd)

theorem QueryTail.dropWhile {tail : List Char} (h : QueryTail tail) {p : Char → Bool}
    (hp : p '?' = false) (t : List Char) : (t ++ tail).dropWhile p = t.dropWhile p ++ tail := by
  rw [List.dropWhile_append]
  split_ifs with ht
  · rw [List.isEmpty_iff.mp ht]
    rcases h with rfl | ⟨q, rfl⟩
    · rfl
    · simp [hp]
  · rfl

/-- After two slashes the text up to the next one is gone from the path, and it is not empty. -/
theorem parseUrl_slashes (hs : base.scheme.special = true) (hfile : base.scheme ≠ .file)
    {l : List (List Char)} (hpath : base.path = .segments l) {t tail : List Char}
    (ht : ∀ c ∈ t, isC0OrSpace c = false ∧ c ≠ '?' ∧ c ≠ '#') (htail : QueryTail tail)
    (h : parseUrl parseHost (some base) ('/' :: '/' :: t ++ tail) = some u) :
    t ≠ [] ∧ PlainPath u (max 1 (t.countP base.scheme.isSlash)) := by
  have hclean : cleanInput ('/' :: '/' :: t ++ tail) = '/' :: '/' :: (t ++ cleanTail tail) :=
    cleanInput_append (by simp) (by simpa [isC0OrSpace] using fun c hc => (ht c hc).1) tail
  have hslash : base.scheme.isSlash '/' = true := by simp [Scheme.isSlash]
  rw [parseUrl_slash hfile hpath hclean, relativeState_slashes hs hslash hslash,
    htail.clean.dropWhile (by simp [Scheme.isSlash])] at h
  constructor
  · rintro rfl
    obtain ⟨a, ha, -⟩ := authorityState_origin h
    have hnil : (cleanTail tail).takeWhile (fun c => !base.scheme.endsAuthority c) = [] := by
      rcases htail.clean with h | ⟨q, h⟩
      · simp [h]
      · simp [h, Scheme.endsAuthority]
    rw [List.dropWhile_nil, List.nil_append, hnil] at ha
    simp [parseAuthority, splitPort, hs] at ha
  · obtain ⟨l', hl', hne, hplain, hlen⟩ := authorityState_plain hs hfile h
    refine ⟨l', hl', hne, hplain, hlen.trans (max_le_max le_rfl ?_)⟩
    have hsub : (t.dropWhile base.scheme.isSlash).dropWhile
        (fun c => !base.scheme.endsAuthority c) <:+ t :=
      (List.dropWhile_suffix _).trans (List.dropWhile_suffix _)
    rw [htail.clean.dropWhile (by simp [Scheme.endsAuthority]),
      htail.clean.takeWhile fun c hc => (ht c (hsub.subset hc)).2]
    exact hsub.sublist.countP_le

/-- The authority after two slashes is the first segment with something in it. -/
theorem authority_of_segments {scheme : Scheme} {l : List (List Char)}
    (hl : ∀ s ∈ l, PlainSegment s) {tail : List Char} (htail : QueryTail tail) :
    ((['/'].intercalate l ++ tail).dropWhile scheme.isSlash).takeWhile
      (fun c => !scheme.endsAuthority c) = (l.find? (· ≠ [])).getD [] := by
  have hq : scheme.isSlash '?' = false := by simp [Scheme.isSlash]
  have hslash : scheme.isSlash '/' = true := by simp [Scheme.isSlash]
  have hnil :
      (tail.dropWhile scheme.isSlash).takeWhile (fun c => !scheme.endsAuthority c) = [] := by
    rcases htail with rfl | ⟨q, rfl⟩
    · rfl
    · simp [hq, Scheme.endsAuthority]
  -- a segment with something in it is the whole authority, whatever ends it
  have hfirst : ∀ s ∈ l, s ≠ [] → ∀ rest, (∀ c ∈ rest.head?, scheme.endsAuthority c = true) →
      ((s ++ rest).dropWhile scheme.isSlash).takeWhile (fun c => !scheme.endsAuthority c) = s := by
    intro s hs hne rest hrest
    have hchars : ∀ c ∈ s, scheme.endsAuthority c = false :=
      fun c hc => plainChar_not_end ((hl s hs).chars c hc) scheme
    obtain ⟨c, s, rfl⟩ := List.exists_cons_of_ne_nil hne
    have hc : scheme.isSlash c = false :=
      plainChar_not_slash ((hl _ hs).chars c List.mem_cons_self) scheme
    rw [List.cons_append, List.dropWhile_cons_of_neg (by simp [hc]), ← List.cons_append,
      List.takeWhile_append_of_pos fun d hd => by simp [hchars d hd]]
    cases rest with
    | nil => simp
    | cons d rest => simp [hrest d rfl]
  induction l with
  | nil => simpa using hnil
  | cons s l ih =>
    by_cases hs : s = []
    · subst hs
      cases l with
      | nil => simpa using hnil
      | cons t l =>
        rw [List.intercalate_cons_cons]
        simpa [hslash] using ih (fun x hx => hl x (List.mem_cons_of_mem _ hx)) fun x hx =>
          hfirst x (List.mem_cons_of_mem _ hx)
    · have htext :
          (['/'].intercalate (s :: l) ++ tail) = s ++ ((l.flatMap fun s => '/' :: s) ++ tail) := by
        cases l with
        | nil => simp
        | cons t l => rw [flatMap_slash (by simp), List.intercalate_cons_cons]; simp
      rw [htext, hfirst s List.mem_cons_self hs]
      · simp [hs]
      · intro c hc
        cases l with
        | nil =>
          rcases htail with rfl | ⟨q, rfl⟩
          · simp at hc
          · simp only [List.flatMap_nil, List.nil_append, List.head?_cons,
              Option.mem_some_iff] at hc
            simp [← hc, Scheme.endsAuthority]
        | cons t l =>
          simp only [List.flatMap_cons, List.cons_append, List.head?_cons,
            Option.mem_some_iff] at hc
          simp [← hc, Scheme.endsAuthority, hslash]

/-- A path of plain segments as a reference: only an empty first segment makes it an authority. -/
theorem originSource_segments {scheme : Scheme} {s : List Char} {l : List (List Char)}
    (hl : ∀ x ∈ s :: l, PlainSegment x) {tail : List Char} (htail : QueryTail tail) :
    originSource scheme (((s :: l).flatMap fun s => '/' :: s) ++ tail) =
      if s = [] ∧ l ≠ [] then .authority ((l.find? (· ≠ [])).getD []) else .base := by
  have hslash : scheme.isSlash '/' = true := by simp [Scheme.isSlash]
  have hclean : cleanInput (((s :: l).flatMap fun s => '/' :: s) ++ tail) =
      '/' :: (s ++ (l.flatMap fun s => '/' :: s) ++ cleanTail tail) := by
    refine (cleanInput_append (by simp) (fun c hc => ?_) tail).trans (by simp)
    rcases mem_plain_path hl hc with rfl | hplain
    · decide
    · exact plainChar_not_blank hplain
  unfold originSource
  rw [hclean, splitScheme_slash]
  cases s with
  | cons c s =>
    have hc : scheme.isSlash c = false :=
      plainChar_not_slash ((hl _ List.mem_cons_self).chars c List.mem_cons_self) scheme
    simp [relativeSource, hc]
  | nil =>
    cases l with
    | nil =>
      rcases htail.clean with h | ⟨q, h⟩
      · simp [h, relativeSource]
      · simp [h, relativeSource, Scheme.isSlash]
    | cons t l =>
      have hauth := @authority_of_segments scheme (t :: l)
        (fun x hx => hl x (List.mem_cons_of_mem _ hx)) _ htail.clean
      rw [flatMap_slash (by simp)]
      simpa [relativeSource, hslash] using hauth

end ZTG
