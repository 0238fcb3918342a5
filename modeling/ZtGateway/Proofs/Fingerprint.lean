import ZtGateway.Lib.Join
import ZtGateway.Spec.Fingerprint

/-! When `computeJa4h` separates a request from all others. The five parts are joined with bars,
and a bar may stand in a header name and in a value: the parts are lost if the text can be cut at
two other bars into parts that a request can have. -/

namespace ZTG

/-- the header names, `accept` and `content-type` of a delivered request -/
def IncomingMessage.names (m : IncomingMessage) : List String := evenIndices m.rawHeaders

def IncomingMessage.accept (m : IncomingMessage) : String := (m.headers "accept").getD ""

def IncomingMessage.contentType (m : IncomingMessage) : String :=
  (m.headers "content-type").getD ""

/-- The five things that a fingerprint is to tell apart; what is absent counts as empty. -/
structure SameShape (m m' : IncomingMessage) : Prop where
  method : m.method = m'.method
  httpVersion : m.httpVersion = m'.httpVersion
  names : m.names = m'.names
  accept : m.accept = m'.accept
  contentType : m.contentType = m'.contentType

def joinNames (names : List Token) : List Char := [','].intercalate (names.map fun n => n.1.toList)

/-- the lines of one header among these names -/
def countName (names : List Token) (name : String) : ℕ := names.countP fun n => n.1.toLower = name

/-- A request with these header names can carry these values: `accept` is the join of a value for
each of its lines, and without a line there is no value. -/
structure CanCarry (names : List Token) (accept contentType : List Char) : Prop where
  accept : ∃ vs : List FieldValue, vs.length = countName names "accept" ∧
    accept = (", ".intercalate (vs.map Subtype.val)).toList
  legal : legalValue contentType = true
  contentType : countName names "content-type" = 0 → contentType = []

namespace RequestHead

variable (r : RequestHead)

def names : List Token := r.lines.map FieldLine.name

def accept : List Char := r.delivered.accept.toList

def contentType : List Char := r.delivered.contentType.toList

/-- the text behind the method and the version -/
def shape : List Char := join3 '|' (joinNames r.names) r.accept r.contentType

end RequestHead

/-- Two bars other than the separators cut the text into a list of names and two values that a
request with these names can carry. -/
structure Recut (r : RequestHead) (i j : ℕ) : Prop where
  lt : i < j
  first : r.shape[i]? = some '|'
  second : r.shape[j]? = some '|'
  other : i ≠ (joinNames r.names).length ∨
    j ≠ (joinNames r.names).length + 1 + r.accept.length
  fits : ∃ names : List Token, joinNames names = r.shape.take i ∧
    CanCarry names ((r.shape.drop (i + 1)).take (j - i - 1)) (r.shape.drop (j + 1))

variable {r r' : RequestHead}

theorem tokenChar_ne_comma : tokenChar ',' = false := by decide +kernel

theorem joinNames_inj {names names' : List Token} (h : joinNames names = joinNames names') :
    names = names' := by
  have htoken : ∀ (ns : List Token), ∀ p ∈ ns.map (fun n => n.1.toList), p ≠ [] ∧ ',' ∉ p := by
    intro ns p hp
    obtain ⟨n, -, rfl⟩ := List.mem_map.mp hp
    refine ⟨fun hnil => n.2.1 (String.toList_inj.mp hnil), fun hcomma => ?_⟩
    have := List.all_eq_true.mp n.2.2 ',' hcomma
    rw [tokenChar_ne_comma] at this
    cases this
  have hmap := intercalate_inj (htoken names) (htoken names') h
  refine List.map_injective_iff.mpr ?_ hmap
  intro n n' hn
  exact Subtype.ext (String.toList_inj.mp hn)

theorem evenIndices_lines (lines : List FieldLine) :
    evenIndices (lines.flatMap fun l => [l.name.1, l.value.1]) = lines.map fun l => l.name.1 := by
  induction lines with
  | nil => rfl
  | cons l lines ih =>
    rw [List.flatMap_cons, List.cons_append, List.cons_append, List.nil_append, evenIndices, ih,
      List.map_cons]

theorem names_delivered : r.delivered.names = r.names.map Subtype.val := by
  unfold IncomingMessage.names RequestHead.names
  rw [List.map_map]
  exact evenIndices_lines r.lines

theorem length_lineValues (lines : List FieldLine) (name : String) :
    (lineValues lines name).length = countName (lines.map FieldLine.name) name := by
  rw [lineValues, List.length_map, ← List.countP_eq_length_filter, countName, List.countP_map]
  rfl

theorem accept_delivered : r.delivered.accept = ", ".intercalate (lineValues r.lines "accept") := by
  unfold IncomingMessage.accept RequestHead.delivered nodeHeaders
  dsimp only
  cases lineValues r.lines "accept" with
  | nil => rfl
  | cons v vs => rfl

theorem contentType_delivered :
    r.delivered.contentType = (lineValues r.lines "content-type").headD "" := by
  unfold IncomingMessage.contentType RequestHead.delivered nodeHeaders
  dsimp only
  cases lineValues r.lines "content-type" with
  | nil => rfl
  | cons v vs => rfl

theorem lineValues_legal (lines : List FieldLine) (name : String) :
    ∃ vs : List FieldValue, lineValues lines name = vs.map Subtype.val :=
  ⟨(lines.filter fun l => l.name.1.toLower = name).map FieldLine.value, by
    rw [lineValues, List.map_map]
    rfl⟩

theorem legalValue_nil : legalValue [] = true := by decide

/-- A request carries its own values. -/
theorem carries_lines : CanCarry r.names r.accept r.contentType where
  accept := by
    obtain ⟨vs, hvs⟩ := lineValues_legal r.lines "accept"
    refine ⟨vs, ?_, ?_⟩
    · rw [RequestHead.names, ← length_lineValues, hvs, List.length_map]
    · rw [RequestHead.accept, accept_delivered, hvs]
  legal := by
    obtain ⟨vs, hvs⟩ := lineValues_legal r.lines "content-type"
    rw [RequestHead.contentType, contentType_delivered, hvs]
    cases vs with
    | nil => exact legalValue_nil
    | cons v vs => exact v.2
  contentType h := by
    have hnil : lineValues r.lines "content-type" = [] := by
      rw [← List.length_eq_zero_iff, length_lineValues]
      exact h
    rw [RequestHead.contentType, contentType_delivered, hnil]
    rfl

/-- lines for the given names: `accept` takes the values in turn, the other lines `v` -/
def fillLines (v : FieldValue) : List Token → List FieldValue → List FieldLine
  | [], _ => []
  | n :: ns, vs =>
    if n.1.toLower = "accept" then
      match vs with
      | [] => ⟨n, v⟩ :: fillLines v ns []
      | w :: ws => ⟨n, w⟩ :: fillLines v ns ws
    else ⟨n, v⟩ :: fillLines v ns vs

theorem fillLines_names (v : FieldValue) (names : List Token) (vs : List FieldValue) :
    (fillLines v names vs).map FieldLine.name = names := by
  fun_induction fillLines v names vs with
  | case1 => rfl
  | case2 n ns hn ih | case3 n ns hn w ws ih | case4 n ns vs hn ih => rw [List.map_cons, ih]

theorem fillLines_accept (v : FieldValue) (names : List Token) (vs : List FieldValue)
    (h : vs.length = countName names "accept") :
    lineValues (fillLines v names vs) "accept" = vs.map Subtype.val := by
  unfold countName lineValues at *
  fun_induction fillLines v names vs with
  | case1 vs => rw [List.length_eq_zero_iff.mp h]; rfl
  | case2 n ns hn ih =>
    rw [List.countP_cons_of_pos (by simpa using hn)] at h
    simp at h
  | case3 n ns hn w ws ih =>
    rw [List.countP_cons_of_pos (by simpa using hn), List.length_cons] at h
    rw [List.filter_cons_of_pos (by simpa using hn), List.map_cons, List.map_cons,
      ih (Nat.succ.inj h)]
  | case4 n ns vs hn ih =>
    rw [List.countP_cons_of_neg (by simpa using hn)] at h
    rw [List.filter_cons_of_neg (by simpa using hn), ih h]

theorem fillLines_contentType (v : FieldValue) (names : List Token) (vs : List FieldValue) :
    ∀ w ∈ lineValues (fillLines v names vs) "content-type", w = v.1 := by
  unfold lineValues
  fun_induction fillLines v names vs with
  | case1 => simp
  | case2 n ns hn ih | case4 n ns vs hn ih =>
    intro w hw
    by_cases hname : n.1.toLower = "content-type"
    · rw [List.filter_cons_of_pos (by simpa using hname), List.map_cons] at hw
      rcases List.mem_cons.mp hw with rfl | hw
      · rfl
      · exact ih w hw
    · rw [List.filter_cons_of_neg (by simpa using hname)] at hw
      exact ih w hw
  | case3 n ns hn w ws ih =>
    have hname : n.1.toLower ≠ "content-type" := by
      rw [hn]
      decide
    rw [List.filter_cons_of_neg (by simpa using hname)]
    exact ih

/-- Every method and version goes with every three parts that fit together. -/
theorem exists_of_carries (r : RequestHead) {names : List Token} {accept contentType : List Char}
    (h : CanCarry names accept contentType) :
    ∃ r' : RequestHead, r'.method = r.method ∧ r'.version = r.version ∧ r'.names = names ∧
      r'.accept = accept ∧ r'.contentType = contentType := by
  obtain ⟨vs, hlen, rfl⟩ := h.accept
  set v : FieldValue := ⟨String.ofList contentType, by rw [String.toList_ofList]; exact h.legal⟩
    with hv
  refine ⟨{ r with lines := fillLines v names vs }, rfl, rfl, fillLines_names v names vs, ?_, ?_⟩
  · rw [RequestHead.accept, accept_delivered, fillLines_accept v names vs hlen]
  · rw [RequestHead.contentType, contentType_delivered]
    cases hvalues : lineValues (fillLines v names vs) "content-type" with
    | nil =>
      have hzero : countName names "content-type" = 0 := by
        rw [← fillLines_names v names vs, ← length_lineValues, hvalues]
        rfl
      rw [h.contentType hzero]
      rfl
    | cons w ws =>
      have hw := fillLines_contentType v names vs w (by rw [hvalues]; exact List.mem_cons_self)
      rw [List.headD_cons, hw, hv, String.toList_ofList]

theorem noBar_method (r : RequestHead) : '|' ∉ r.method.toList := by
  have hall : ∀ m ∈ METHODS, '|' ∉ m.toList := by decide +kernel
  exact hall _ r.method_known

theorem noBar_version (r : RequestHead) : '|' ∉ r.version.toList := by
  have hall : ∀ v ∈ VERSIONS, '|' ∉ v.toList := by decide +kernel
  exact hall _ r.version_known

theorem joinNames_toList (r : RequestHead) :
    (",".intercalate r.delivered.names).toList = joinNames r.names := by
  rw [String.toList_intercalate, names_delivered, List.map_map]
  rfl

/-- The hashed text, part by part. -/
theorem ja4hInput_toList (r : RequestHead) : (ja4hInput r.delivered).toList =
    r.method.toList ++ '|' :: (r.version.toList ++ '|' :: r.shape) := by
  have hbar : "|".toList = ['|'] := by decide
  change ("|".intercalate [r.method, r.version, ",".intercalate r.delivered.names,
    r.delivered.accept, r.delivered.contentType]).toList = _
  rw [String.toList_intercalate, hbar]
  simp only [List.map_cons, List.map_nil, joinNames_toList, List.intercalate, List.intersperse,
    List.flatten_cons, List.flatten_nil, List.append_nil, List.singleton_append]
  rfl

theorem ja4hInput_eq_iff : ja4hInput r'.delivered = ja4hInput r.delivered ↔
    r'.method = r.method ∧ r'.version = r.version ∧ r'.shape = r.shape := by
  rw [← String.toList_inj, ja4hInput_toList, ja4hInput_toList]
  constructor
  · intro h
    obtain ⟨hmethod, h⟩ := cut_inj (noBar_method r') (noBar_method r) h
    obtain ⟨hversion, h⟩ := cut_inj (noBar_version r') (noBar_version r) h
    exact ⟨String.toList_inj.mp hmethod, String.toList_inj.mp hversion, h⟩
  · rintro ⟨hmethod, hversion, hshape⟩
    rw [hmethod, hversion, hshape]

theorem sameShape_iff : SameShape r'.delivered r.delivered ↔
    r'.method = r.method ∧ r'.version = r.version ∧ r'.names = r.names ∧ r'.accept = r.accept ∧
      r'.contentType = r.contentType := by
  have hnames : r'.delivered.names = r.delivered.names ↔ r'.names = r.names := by
    rw [names_delivered, names_delivered]
    exact (List.map_injective_iff.mpr Subtype.val_injective).eq_iff
  unfold RequestHead.accept RequestHead.contentType
  rw [String.toList_inj, String.toList_inj, ← hnames]
  constructor
  · intro h
    exact ⟨h.method, Option.some.inj h.httpVersion, h.names, h.accept, h.contentType⟩
  · rintro ⟨hmethod, hversion, hnames, haccept, htype⟩
    exact ⟨hmethod, congrArg some hversion, hnames, haccept, htype⟩

/-- Another request with the same text is cut at other bars. -/
theorem recut_of_shape (hshape : r'.shape = r.shape)
    (hother : ¬ (r'.names = r.names ∧ r'.accept = r.accept ∧ r'.contentType = r.contentType)) :
    ∃ i j, Recut r i j := by
  refine ⟨(joinNames r'.names).length, (joinNames r'.names).length + 1 + r'.accept.length, ?_⟩
  refine ⟨by omega, ?_, ?_, ?_, r'.names, ?_, ?_⟩
  · rw [← hshape]
    exact getElem?_join3_first
  · rw [← hshape]
    exact getElem?_join3_second
  · by_contra hsame
    rw [not_or, not_not, not_not] at hsame
    obtain ⟨hnames, haccept, htype⟩ := join3_inj_of_length hsame.1 (by omega) hshape
    exact hother ⟨joinNames_inj hnames, haccept, htype⟩
  · rw [← hshape]
    exact take_join3.symm
  · rw [← hshape, RequestHead.shape, mid_join3, last_join3]
    exact carries_lines

/-- The parts that another cut gives are not all the request's own. -/
theorem Recut.not_own {i j : ℕ} (h : Recut r i j) (hfirst : r.shape.take i = joinNames r.names)
    (hsecond : (r.shape.drop (i + 1)).take (j - i - 1) = r.accept) : False := by
  obtain ⟨hi, -⟩ := List.getElem?_eq_some_iff.mp h.first
  obtain ⟨hj, -⟩ := List.getElem?_eq_some_iff.mp h.second
  have hlt := h.lt
  have hnames := congrArg List.length hfirst
  have haccept := congrArg List.length hsecond
  rw [List.length_take] at hnames
  rw [List.length_take, List.length_drop] at haccept
  rcases h.other with hother | hother
  · omega
  · omega

/-- The fingerprint of a request tells it from all others exactly if its text cannot be cut
otherwise. -/
theorem ja4h_separates_iff (sha256Hex : String → String)
    (hsha : Set.InjOn sha256Hex (Set.range fun r : RequestHead => ja4hInput r.delivered))
    (r : RequestHead) :
    (∀ r' : RequestHead, computeJa4h sha256Hex r'.delivered = computeJa4h sha256Hex r.delivered ↔
      SameShape r'.delivered r.delivered) ↔ ¬ ∃ i j, Recut r i j := by
  have hinput : ∀ r' : RequestHead,
      computeJa4h sha256Hex r'.delivered = computeJa4h sha256Hex r.delivered ↔
        r'.method = r.method ∧ r'.version = r.version ∧ r'.shape = r.shape := by
    intro r'
    rw [← ja4hInput_eq_iff]
    exact ⟨fun h => hsha ⟨r', rfl⟩ ⟨r, rfl⟩ h, fun h => congrArg sha256Hex h⟩
  constructor
  · rintro hseparates ⟨i, j, hrecut⟩
    obtain ⟨names, hnames, hcarries⟩ := hrecut.fits
    obtain ⟨r', hmethod, hversion, rfl, haccept, htype⟩ := exists_of_carries r hcarries
    have hshape : r'.shape = r.shape := by
      rw [RequestHead.shape, hnames, haccept, htype]
      exact join3_cut hrecut.lt hrecut.first hrecut.second
    obtain ⟨-, -, hsame, hsameAccept, -⟩ := sameShape_iff.mp
      ((hseparates r').mp ((hinput r').mpr ⟨hmethod, hversion, hshape⟩))
    exact hrecut.not_own (hsame ▸ hnames.symm) (haccept.symm.trans hsameAccept)
  · intro hunique r'
    rw [hinput, sameShape_iff]
    constructor
    · rintro ⟨hmethod, hversion, hshape⟩
      by_contra hne
      exact hunique (recut_of_shape hshape fun h => hne ⟨hmethod, hversion, h⟩)
    · rintro ⟨hmethod, hversion, hnames, haccept, htype⟩
      refine ⟨hmethod, hversion, ?_⟩
      rw [RequestHead.shape, RequestHead.shape, hnames, haccept, htype]

/-- Without bars of its own a request has no other cut. -/
theorem no_recut (hnames : ∀ n ∈ r.names, '|' ∉ n.1.toList) (haccept : '|' ∉ r.accept)
    (htype : '|' ∉ r.contentType) : ¬ ∃ i j, Recut r i j := by
  rintro ⟨i, j, h⟩
  have hjoin : '|' ∉ joinNames r.names := by
    intro hbar
    rcases mem_intercalate hbar with hcomma | ⟨p, hp, hbar⟩
    · exact absurd hcomma (by decide)
    · obtain ⟨n, hn, rfl⟩ := List.mem_map.mp hp
      exact hnames n hn hbar
  obtain ⟨hfirst, hsecond, -⟩ :=
    join3_inj hjoin haccept htype (join3_cut h.lt h.first h.second)
  exact h.not_own hfirst hsecond

/-- SHA-256 of two texts; the texts of other requests stand for their own hashes. -/
def sampleSha (s : String) : String :=
  if s = "GET|1.1|Host,Accept|text/html|" then
    "b34608ad2b9e3ab01b9a8aa1f9d430c1a73558bb8545a0f8866ec358a6cc84bc"
  else if s = "POST|1.1|Accept,Content-Type|a|b|c" then
    "c3b10b2714d139d5736da281572d31d5282d69f8bba2038814dcc8bcb0e18261"
  else s

theorem sampleSha_injOn :
    Set.InjOn sampleSha (Set.range fun r : RequestHead => ja4hInput r.delivered) := by
  have hbar : ∀ r : RequestHead, '|' ∈ (ja4hInput r.delivered).toList := by
    intro r
    rw [ja4hInput_toList]
    exact List.mem_append_right _ List.mem_cons_self
  have hhash : '|' ∉ "b34608ad2b9e3ab01b9a8aa1f9d430c1a73558bb8545a0f8866ec358a6cc84bc".toList ∧
      '|' ∉ "c3b10b2714d139d5736da281572d31d5282d69f8bba2038814dcc8bcb0e18261".toList := by
    decide +kernel
  rintro _ ⟨r, rfl⟩ _ ⟨r', rfl⟩ h
  have hr := hbar r
  have hr' := hbar r'
  dsimp only at h ⊢
  unfold sampleSha at h
  split_ifs at h with h₁ h₂ h₃ h₄ h₅ h₆ h₇
  · rw [h₁, h₂]
  · exact absurd h (by decide)
  · exact absurd (h ▸ hr') hhash.1
  · exact absurd h (by decide)
  · rw [h₄, h₆]
  · exact absurd (h ▸ hr') hhash.2
  · exact absurd (h ▸ hr) hhash.1
  · exact absurd (h ▸ hr) hhash.2
  · exact h

def sampleGet : RequestHead where
  method := "GET"
  version := "1.1"
  lines := [⟨⟨"Host", by decide +kernel⟩, ⟨"gw", by decide +kernel⟩⟩,
    ⟨⟨"Accept", by decide +kernel⟩, ⟨"text/html", by decide +kernel⟩⟩]
  method_known := by decide +kernel
  version_known := by decide +kernel

/-- a request with these values for its two headers -/
def samplePost (accept contentType : FieldValue) : RequestHead where
  method := "POST"
  version := "1.1"
  lines := [⟨⟨"Accept", by decide +kernel⟩, accept⟩, ⟨⟨"Content-Type", by decide +kernel⟩, contentType⟩]
  method_known := by decide +kernel
  version_known := by decide +kernel

theorem ja4h_separates_get :
    computeJa4h sampleSha (samplePost ⟨"text/html", by decide +kernel⟩ ⟨"", by decide⟩).delivered =
        computeJa4h sampleSha sampleGet.delivered ↔
      SameShape (samplePost ⟨"text/html", by decide +kernel⟩ ⟨"", by decide⟩).delivered
        sampleGet.delivered :=
  (ja4h_separates_iff sampleSha sampleSha_injOn sampleGet).mpr
    (no_recut (by decide +kernel) (by decide +kernel) (by decide +kernel)) _

/-- The bar between the two values can be moved. -/
theorem ja4h_collision :
    ¬ (computeJa4h sampleSha
        (samplePost ⟨"a|b", by decide +kernel⟩ ⟨"c", by decide +kernel⟩).delivered =
      computeJa4h sampleSha
        (samplePost ⟨"a", by decide +kernel⟩ ⟨"b|c", by decide +kernel⟩).delivered ↔
      SameShape (samplePost ⟨"a|b", by decide +kernel⟩ ⟨"c", by decide +kernel⟩).delivered
        (samplePost ⟨"a", by decide +kernel⟩ ⟨"b|c", by decide +kernel⟩).delivered) := by
  intro h
  have hsame := h.mp (by decide +kernel)
  exact absurd hsame.accept (by decide +kernel)

end ZTG
