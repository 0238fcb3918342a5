import ZtGateway.Lib.Url

/-! Where a reference takes its origin from when it is resolved against a special URL: from the
base, from an authority of its own after two slashes of either kind, or from a scheme of its own. -/

namespace ZTG

variable {parseHost : HostParser} {u base : Url} {scheme : Scheme} {input : List Char}

inductive OriginSource where
  | base
  | authority (text : List Char)
  | scheme (s : Scheme)
  deriving DecidableEq

def relativeSource (scheme : Scheme) : List Char → OriginSource
  | c :: d :: rest =>
    if scheme.isSlash c && scheme.isSlash d then
      .authority ((rest.dropWhile scheme.isSlash).takeWhile fun c => !scheme.endsAuthority c)
    else .base
  | _ => .base

/-- `scheme` is the scheme of the base -/
def originSource (scheme : Scheme) (input : List Char) : OriginSource :=
  match splitScheme (cleanInput input) with
  | some (s, rest) => if s = scheme then relativeSource scheme rest else .scheme s
  | none => relativeSource scheme (cleanInput input)

theorem Url.SameOrigin.symm {v : Url} (h : u.SameOrigin v) : v.SameOrigin u :=
  ⟨h.1.symm, h.2.1.symm, h.2.2.symm⟩

theorem Url.SameOrigin.trans {v w : Url} (h : u.SameOrigin v) (h' : v.SameOrigin w) :
    u.SameOrigin w :=
  ⟨h.1.trans h'.1, h.2.1.trans h'.2.1, h.2.2.trans h'.2.2⟩

theorem queryState_eq (u : Url) (input : List Char) :
    ∃ q f, queryState u input = { u with query := q, fragment := f } := by
  unfold queryState
  split
  · dsimp only
    split
    · exact ⟨_, _, rfl⟩
    · exact ⟨_, _, rfl⟩
  · exact ⟨_, _, rfl⟩
  · exact ⟨_, _, rfl⟩

theorem pathState_eq (u : Url) (input : List Char) :
    ∃ q f, pathState u input = { u with
      path := .segments (pushSegments u.scheme u.segments
        ((input.takeWhile fun c => c != '?' && c != '#').splitOnP u.scheme.isSlash)),
      query := q,
      fragment := f } :=
  queryState_eq _ _

@[simp] theorem queryState_sameOrigin (u : Url) (input : List Char) :
    (queryState u input).SameOrigin u := by
  obtain ⟨q, f, h⟩ := queryState_eq u input
  rw [h]
  exact ⟨rfl, rfl, rfl⟩

@[simp] theorem pathState_sameOrigin (u : Url) (input : List Char) :
    (pathState u input).SameOrigin u := by
  obtain ⟨q, f, h⟩ := pathState_eq u input
  rw [h]
  exact ⟨rfl, rfl, rfl⟩

@[simp] theorem pathStartState_sameOrigin (u : Url) (input : List Char) :
    (pathStartState u input).SameOrigin u := by
  unfold pathStartState
  split
  · split
    · exact pathState_sameOrigin u []
    · exact ⟨rfl, rfl, rfl⟩
  · split_ifs
    · exact pathState_sameOrigin u _
    · exact queryState_sameOrigin u _
    · exact pathState_sameOrigin u _

theorem textPathState_scheme (u : Url) (input : List Char) :
    (textPathState u input).scheme = u.scheme :=
  (queryState_sameOrigin _ _).1

theorem authorityState_origin (h : authorityState parseHost scheme input = some u) :
    ∃ a, parseAuthority parseHost scheme (input.takeWhile fun c => !scheme.endsAuthority c) =
        some a ∧
      u.scheme = scheme ∧ u.host = some a.host ∧ u.port = a.port := by
  obtain ⟨a, ha, rfl⟩ := Option.map_eq_some_iff.mp h
  exact ⟨a, ha, pathStartState_sameOrigin _ _⟩

/-- A parsed special URL has a path of segments. -/
theorem authorityState_path (hs : scheme.special = true)
    (h : authorityState parseHost scheme input = some u) : ∃ l, u.path = .segments l := by
  obtain ⟨a, -, rfl⟩ := Option.map_eq_some_iff.mp h
  unfold pathStartState
  split
  · rw [if_pos hs]
    exact ⟨_, congrArg Url.path (pathState_eq _ _).choose_spec.choose_spec⟩
  · simp only [hs, Bool.not_true, Bool.false_and, Bool.false_eq_true, if_false]
    split
    · exact ⟨_, congrArg Url.path (pathState_eq _ _).choose_spec.choose_spec⟩
    · exact ⟨_, congrArg Url.path (pathState_eq _ _).choose_spec.choose_spec⟩

/-- Two slashes: an authority of its own. -/
theorem relativeState_slashes (hs : base.scheme.special = true) {c d : Char}
    (hc : base.scheme.isSlash c = true) (hd : base.scheme.isSlash d = true) (rest : List Char) :
    relativeState parseHost base (c :: d :: rest) =
      authorityState parseHost base.scheme (rest.dropWhile base.scheme.isSlash) := by
  simp [relativeState, relativeSlashState, ignoreSlashesState, hc, hd, hs]

/-- One slash: a path of its own. -/
theorem relativeState_slash {c : Char} (hc : base.scheme.isSlash c = true) {rest : List Char}
    (hrest : ∀ d ∈ rest.head?, base.scheme.isSlash d = false) :
    relativeState parseHost base (c :: rest) =
      some (pathState
        { base with path := .segments [], query := none, fragment := none } rest) := by
  cases rest with
  | nil => simp [relativeState, relativeSlashState, hc]
  | cons d rest => simp [relativeState, relativeSlashState, hc, hrest d rfl]

theorem relativeState_no_slash (h : ∀ c ∈ input.head?, base.scheme.isSlash c = false) :
    ∃ u, relativeState parseHost base input = some u ∧ u.SameOrigin base := by
  cases input with
  | nil => exact ⟨_, rfl, rfl, rfl, rfl⟩
  | cons c rest =>
    simp only [relativeState, h c rfl, Bool.false_eq_true, if_false]
    split_ifs
    · exact ⟨_, rfl, queryState_sameOrigin _ _⟩
    · exact ⟨_, rfl, pathState_sameOrigin _ _⟩

/-- What the relative state makes of a reference, by where its origin comes from. -/
theorem relativeState_origin (hs : base.scheme.special = true) (input : List Char) :
    match relativeSource base.scheme input with
    | .base => ∃ u, relativeState parseHost base input = some u ∧ u.SameOrigin base
    | .authority text => ∃ rest, text = rest.takeWhile (fun c => !base.scheme.endsAuthority c) ∧
        relativeState parseHost base input = authorityState parseHost base.scheme rest
    | .scheme _ => False := by
  cases input with
  | nil => exact relativeState_no_slash (by simp)
  | cons c rest =>
    by_cases hc : base.scheme.isSlash c = true
    · cases rest with
      | nil => exact ⟨_, relativeState_slash hc (by simp), pathState_sameOrigin _ _⟩
      | cons d rest =>
        by_cases hd : base.scheme.isSlash d = true
        · simp only [relativeSource, hc, hd, Bool.and_self, if_true]
          exact ⟨_, rfl, relativeState_slashes hs hc hd rest⟩
        · simp only [relativeSource, hc, hd, Bool.and_false, Bool.false_eq_true, if_false]
          exact ⟨_, relativeState_slash hc (by simpa using hd), pathState_sameOrigin _ _⟩
    · have hsrc : relativeSource base.scheme (c :: rest) = .base := by
        cases rest <;> simp [relativeSource, hc]
      rw [hsrc]
      exact relativeState_no_slash (by simpa using hc)

private theorem fileHostState_scheme (h : fileHostState parseHost input = some u) :
    u.scheme = .file := by
  unfold fileHostState at h
  dsimp only at h
  split_ifs at h
  · obtain rfl := Option.some.inj h
    exact (pathState_sameOrigin _ _).1
  · obtain rfl := Option.some.inj h
    exact (pathStartState_sameOrigin _ _).1
  · obtain ⟨host, -, rfl⟩ := Option.map_eq_some_iff.mp h
    exact (pathStartState_sameOrigin _ _).1

private theorem slashed_scheme (b : Option Url) (hu : u.scheme = .file) (input : List Char) :
    (fileState.slashed b u input).scheme = .file := by
  unfold fileState.slashed
  split
  · exact (pathState_sameOrigin _ _).1.trans hu
  · exact (pathState_sameOrigin _ _).1.trans hu

theorem fileState_scheme {b : Option Url} (h : fileState parseHost b input = some u) :
    u.scheme = .file := by
  unfold fileState at h
  dsimp only at h
  split at h
  · obtain rfl := Option.some.inj h
    cases b with
    | none => exact (pathState_sameOrigin { scheme := .file, host := some [] } []).1
    | some b => rfl
  · next c rest =>
    by_cases hc : Scheme.file.isSlash c = true
    · rw [if_pos hc] at h
      split at h
      · split_ifs at h
        · exact fileHostState_scheme h
        · obtain rfl := Option.some.inj h
          exact slashed_scheme b rfl _
      · obtain rfl := Option.some.inj h
        exact slashed_scheme b rfl _
    · rw [if_neg hc] at h
      cases b with
      | none =>
        obtain rfl := Option.some.inj h
        exact (pathState_sameOrigin _ _).1
      | some b =>
        dsimp only at h
        split at h
        · obtain rfl := Option.some.inj h
          exact (queryState_sameOrigin _ _).1
        · obtain rfl := Option.some.inj h
          exact (pathState_sameOrigin _ _).1

theorem relativeState_scheme (hs : base.scheme.special = true)
    (h : relativeState parseHost base input = some u) : u.scheme = base.scheme := by
  have hrel := @relativeState_origin parseHost _ hs input
  split at hrel
  · obtain ⟨v, hv, hsame⟩ := hrel
    obtain rfl := Option.some.inj (hv.symm.trans h)
    exact hsame.1
  · obtain ⟨i, -, hi⟩ := hrel
    obtain ⟨-, -, hscheme, -⟩ := authorityState_origin (hi ▸ h)
    exact hscheme
  · exact hrel.elim

/-- A reference with a scheme gets that scheme. -/
theorem schemeState_scheme {b : Option Url} {rest : List Char}
    (h : schemeState parseHost b scheme rest = some u) : u.scheme = scheme := by
  have hauth : ∀ i, authorityState parseHost scheme i = some u → u.scheme = scheme := by
    intro i hi
    obtain ⟨-, -, hs, -⟩ := authorityState_origin hi
    exact hs
  unfold schemeState at h
  split at h
  · exact fileState_scheme h
  · split at h
    · exact hauth _ h
    · obtain rfl := Option.some.inj h
      exact (pathState_sameOrigin _ _).1
    · obtain rfl := Option.some.inj h
      exact textPathState_scheme _ _
  · next hfile hother =>
    have hspecial : scheme.special = true := by
      cases scheme with
      | other s => exact absurd rfl (hother s)
      | _ => rfl
    split at h
    · exact hauth _ h
    · next v hv =>
      obtain rfl : v.scheme = scheme := by simpa using (Option.filter_eq_some_iff.mp hv).2
      split at h
      · exact hauth _ h
      · exact relativeState_scheme hspecial h

/-- The base's own scheme in front of a reference changes nothing. -/
theorem schemeState_own (hs : base.scheme.special = true) (hfile : base.scheme ≠ .file)
    (rest : List Char) :
    schemeState parseHost (some base) base.scheme rest = relativeState parseHost base rest := by
  have hfilter : (some base).filter (fun b => b.scheme = base.scheme) = some base := by simp
  unfold schemeState
  split
  · next h => exact absurd h hfile
  · next h => simp [h, Scheme.special] at hs
  · rw [hfilter]
    dsimp only
    split
    · next rest =>
        exact (relativeState_slashes hs (by simp [Scheme.isSlash])
          (by simp [Scheme.isSlash]) rest).symm
    · rfl

/-- A base with another scheme is not looked at. -/
theorem schemeState_other (h : base.scheme ≠ scheme) (rest : List Char) :
    schemeState parseHost (some base) scheme rest = schemeState parseHost none scheme rest := by
  have hfilter : ∀ s, base.scheme ≠ s → ((some base).filter fun b => b.scheme = s) = none := by
    intro s hs
    simp [Option.filter, hs]
  unfold schemeState
  split
  · rw [hfilter _ h, Option.filter_none]
  · rfl
  · rw [hfilter _ h, Option.filter_none]

theorem parseUrl_scheme {b : Option Url} {rest : List Char}
    (h : splitScheme (cleanInput input) = some (scheme, rest)) :
    parseUrl parseHost b input = schemeState parseHost b scheme rest := by
  simp [parseUrl, h]

/-- The parser on a reference, by where its origin comes from. -/
theorem parseUrl_origin (hs : base.scheme.special = true) (hfile : base.scheme ≠ .file)
    {l : List (List Char)} (hpath : base.path = .segments l) (input : List Char) :
    match originSource base.scheme input with
    | .base => ∃ u, parseUrl parseHost (some base) input = some u ∧ u.SameOrigin base
    | .authority text => ∃ rest, text = rest.takeWhile (fun c => !base.scheme.endsAuthority c) ∧
        parseUrl parseHost (some base) input = authorityState parseHost base.scheme rest
    | .scheme s => s ≠ base.scheme ∧
        parseUrl parseHost (some base) input = parseUrl parseHost none input ∧
        ∀ u, parseUrl parseHost none input = some u → u.scheme = s := by
  have hrel := @relativeState_origin parseHost _ hs
  unfold originSource parseUrl
  dsimp only
  rcases hsplit : splitScheme (cleanInput input) with _ | ⟨s, rest⟩
  · simp only [noSchemeState, hpath, hfile, if_false]
    have := hrel (cleanInput input)
    split at this
    · exact this
    · exact this
    · exact this.elim
  · by_cases h : s = base.scheme
    · subst h
      simp only [if_true, schemeState_own hs hfile]
      have := hrel rest
      split at this
      · exact this
      · exact this
      · exact this.elim
    · simp only [h, if_false]
      exact ⟨h, schemeState_other (Ne.symm h) rest, fun u hu => schemeState_scheme hu⟩

/-- The reference names no origin but the base's: it has none of its own, or its authority is no
authority or that of the base, or it has another scheme and is no URL. -/
def KeepsOrigin (parseHost : HostParser) (base : Url) (input : List Char) : Prop :=
  match originSource base.scheme input with
  | .base => True
  | .authority text => ∀ a, parseAuthority parseHost base.scheme text = some a →
      some a.host = base.host ∧ a.port = base.port
  | .scheme _ => parseUrl parseHost none input = none

theorem KeepsOrigin.congr {base' : Url} (h : base'.SameOrigin base) (input : List Char) :
    KeepsOrigin parseHost base' input ↔ KeepsOrigin parseHost base input := by
  unfold KeepsOrigin
  rw [h.1, h.2.1, h.2.2]

theorem keepsOrigin_iff (hs : base.scheme.special = true) (hfile : base.scheme ≠ .file)
    {l : List (List Char)} (hpath : base.path = .segments l) (input : List Char) :
    (∀ u, parseUrl parseHost (some base) input = some u → u.SameOrigin base) ↔
      KeepsOrigin parseHost base input := by
  have horigin := @parseUrl_origin parseHost base hs hfile l hpath input
  unfold KeepsOrigin
  split at horigin
  · obtain ⟨u, hu, hsame⟩ := horigin
    refine iff_of_true (fun v hv => ?_) trivial
    obtain rfl := Option.some.inj (hu.symm.trans hv)
    exact hsame
  · obtain ⟨rest, rfl, hparse⟩ := horigin
    rw [hparse]
    constructor
    · intro h a ha
      obtain ⟨u, hu⟩ : ∃ u, authorityState parseHost base.scheme rest = some u := by
        simp [authorityState, ha]
      obtain ⟨a', ha', -, hhost, hport⟩ := authorityState_origin hu
      obtain rfl := Option.some.inj (ha.symm.trans ha')
      obtain ⟨-, hbh, hbp⟩ := h u hu
      exact ⟨hhost.symm.trans hbh, hport.symm.trans hbp⟩
    · intro h u hu
      obtain ⟨a, ha, hscheme, hhost, hport⟩ := authorityState_origin hu
      exact ⟨hscheme, hhost.trans (h a ha).1, hport.trans (h a ha).2⟩
  · obtain ⟨hne, hparse, hscheme⟩ := horigin
    rw [hparse]
    constructor
    · intro h
      by_contra hsome
      obtain ⟨u, hu⟩ := Option.ne_none_iff_exists'.mp hsome
      exact hne ((hscheme u hu).symm.trans (h u hu).1)
    · intro h u hu
      simp [h] at hu

/-- An absolute special URL is its scheme, slashes and an authority. -/
theorem parseUrl_absolute (hs : base.scheme.special = true) (hfile : base.scheme ≠ .file)
    (h : parseUrl parseHost none input = some base) :
    ∃ rest, splitScheme (cleanInput input) = some (base.scheme, rest) ∧
      authorityState parseHost base.scheme (rest.dropWhile base.scheme.isSlash) = some base := by
  unfold parseUrl at h
  dsimp only at h
  split at h
  · next s rest hsplit =>
    obtain rfl := schemeState_scheme h
    refine ⟨rest, hsplit, ?_⟩
    unfold schemeState at h
    split at h
    · next hf => exact absurd hf hfile
    · next hs' => simp [hs', Scheme.special] at hs
    · exact h
  · simp [noSchemeState] at h

theorem parseUrl_absolute_path (hs : base.scheme.special = true) (hfile : base.scheme ≠ .file)
    (h : parseUrl parseHost none input = some base) : ∃ l, base.path = .segments l := by
  obtain ⟨rest, -, hauth⟩ := parseUrl_absolute hs hfile h
  exact authorityState_path hs hauth

theorem takeWhile_concat_neg {p : Char → Bool} {c : Char} (hc : p c = false) (l : List Char) :
    (l ++ [c]).takeWhile p = l.takeWhile p := by
  rw [List.takeWhile_append]
  split_ifs with h
  · rw [List.takeWhile_cons_of_neg (by simp [hc]), List.append_nil]
    exact ((List.takeWhile_prefix p).eq_of_length h).symm
  · rfl

private theorem cleanInput_concat_slash (hlast : ∀ c ∈ input.getLast?, isC0OrSpace c = false)
    (hne : cleanInput input ≠ []) : cleanInput (input ++ ['/']) = cleanInput input ++ ['/'] := by
  have hslash : isC0OrSpace '/' = false := by decide
  have hdrop : (input ++ ['/']).dropWhile isC0OrSpace = input.dropWhile isC0OrSpace ++ ['/'] := by
    rw [List.dropWhile_append]
    split_ifs with h
    · rw [cleanInput, List.isEmpty_iff.mp h] at hne
      exact absurd rfl hne
    · rfl
  have hkeep :
      (input.dropWhile isC0OrSpace).rdropWhile isC0OrSpace = input.dropWhile isC0OrSpace := by
    apply List.rdropWhile_eq_self_iff.mpr
    intro hl
    have hsuf : input.dropWhile isC0OrSpace <:+ input := List.dropWhile_suffix _
    have hget : input.getLast? = some ((input.dropWhile isC0OrSpace).getLast hl) := by
      rw [hsuf.getLast hl]
      exact List.getLast?_eq_some_getLast _
    simpa using hlast _ hget
  rw [cleanInput, hdrop, List.rdropWhile_concat_neg _ _ _ (by simp [hslash]), List.filter_append,
    cleanInput, hkeep]
  rfl

private theorem splitScheme_concat {rest : List Char} (h : splitScheme input = some (scheme, rest))
    (c : Char) : splitScheme (input ++ [c]) = some (scheme, rest ++ [c]) := by
  have hcolon : isSchemeChar ':' = false := by decide
  unfold splitScheme at h ⊢
  split at h
  · next d ds rest' htake hdrop =>
    have hinput : input = (d :: ds) ++ ':' :: rest' := by
      rw [← htake, ← hdrop, List.takeWhile_append_dropWhile]
    have hall : ∀ x ∈ d :: ds, isSchemeChar x = true :=
      fun x hx => List.mem_takeWhile_imp (htake ▸ hx)
    have htake' : (input ++ [c]).takeWhile isSchemeChar = d :: ds := by
      rw [hinput, List.append_assoc, List.takeWhile_append_of_pos hall]
      simp [hcolon]
    have hdrop' : (input ++ [c]).dropWhile isSchemeChar = ':' :: (rest' ++ [c]) := by
      rw [hinput, List.append_assoc, List.dropWhile_append_of_pos hall]
      simp [hcolon]
    split_ifs at h with hd
    obtain ⟨rfl, rfl⟩ := Prod.mk.inj (Option.some.inj h)
    rw [htake', hdrop']
    exact if_pos hd
  · simp at h

/-- A slash at its end leaves the origin of an absolute URL as it is. -/
theorem parseUrl_concat_slash (hs : base.scheme.special = true) (hfile : base.scheme ≠ .file)
    (h : parseUrl parseHost none input = some base)
    (hlast : ∀ c ∈ input.getLast?, isC0OrSpace c = false) :
    ∃ u, parseUrl parseHost none (input ++ ['/']) = some u ∧ u.SameOrigin base := by
  obtain ⟨rest, hsplit, hauth⟩ := parseUrl_absolute hs hfile h
  have hne : cleanInput input ≠ [] := by
    intro hnil
    simp [hnil, splitScheme] at hsplit
  obtain ⟨a, ha, hscheme, hhost, hport⟩ := authorityState_origin hauth
  have hrest : rest.dropWhile base.scheme.isSlash ≠ [] := by
    intro hnil
    simp [hnil, parseAuthority, splitPort, hs] at ha
  have hdrop : (rest ++ ['/']).dropWhile base.scheme.isSlash =
      rest.dropWhile base.scheme.isSlash ++ ['/'] := by
    rw [List.dropWhile_append, if_neg (by simpa using hrest)]
  have hstate : schemeState parseHost none base.scheme (rest ++ ['/']) =
      authorityState parseHost base.scheme (rest.dropWhile base.scheme.isSlash ++ ['/']) := by
    unfold schemeState
    split
    · next hf => exact absurd hf hfile
    · next hs' => simp [hs', Scheme.special] at hs
    · exact congrArg (authorityState parseHost base.scheme) hdrop
  obtain ⟨u, hu⟩ : ∃ u, authorityState parseHost base.scheme
      (rest.dropWhile base.scheme.isSlash ++ ['/']) = some u := by
    unfold authorityState
    rw [takeWhile_concat_neg (by simp [Scheme.endsAuthority, Scheme.isSlash]), ha]
    exact ⟨_, rfl⟩
  obtain ⟨a', ha', hscheme', hhost', hport'⟩ := authorityState_origin hu
  rw [takeWhile_concat_neg (by simp [Scheme.endsAuthority, Scheme.isSlash])] at ha'
  obtain rfl := Option.some.inj (ha.symm.trans ha')
  refine ⟨u, ?_, hscheme', hhost'.trans hhost.symm, hport'.trans hport.symm⟩
  unfold parseUrl
  dsimp only
  rw [cleanInput_concat_slash hlast hne, splitScheme_concat hsplit]
  exact hstate.trans hu

theorem newUrl_some {input text : List Char} {u : Url} : newUrl parseHost input text = some u ↔
    ∃ b, parseUrl parseHost none text = some b ∧ parseUrl parseHost (some b) input = some u :=
  Option.bind_eq_some_iff

end ZTG
