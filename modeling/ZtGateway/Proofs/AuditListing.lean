import ZtGateway.Spec.AuditLogs

/-! The audit listing: what it reports as the total, and when its pages are the whole log. -/

namespace ZTG

namespace AuditRepository

/-- the rows that a caller asks for -/
def Matches (userId : Option String) (decision : Option Decision) (row : AuditLogRow) : Bool :=
  userId.all (· = row.user_id) && decision.all (· = row.decision)

def matching (table : AuditTable) (filters : AuditLogFilters) : List AuditLogRow :=
  table.rows.filter (Matches filters.userId filters.decision)

theorem decision_text_inj {a b : Decision} : a.text = b.text ↔ a = b := by
  constructor
  · intro h
    cases a with
    | allow => cases b with
      | allow => rfl
      | challenge | deny => exact absurd h (by decide)
    | challenge => cases b with
      | challenge => rfl
      | allow | deny => exact absurd h (by decide)
    | deny => cases b with
      | deny => rfl
      | allow | challenge => exact absurd h (by decide)
  · exact congrArg Decision.text

/-- The placeholders of the WHERE clause meet the parameters they were pushed with. -/
theorem selectLogs_selects (filters : AuditLogFilters) :
    (selectLogs filters).selects = Matches filters.userId filters.decision := by
  obtain ⟨userId, decision, limit, offset⟩ := filters
  funext row
  rw [Bool.eq_iff_iff]
  cases userId with
  | none =>
    cases decision with
    | none => simp [selectLogs, pushFilter, SelectLogs.selects, Matches]
    | some d =>
      simp [selectLogs, pushFilter, SelectLogs.selects, SelectLogs.param, Matches, LogColumn.of,
        decision_text_inj]
  | some u =>
    cases decision with
    | none => simp [selectLogs, pushFilter, SelectLogs.selects, SelectLogs.param, Matches,
        LogColumn.of]
    | some d =>
      simp [selectLogs, pushFilter, SelectLogs.selects, SelectLogs.param, Matches, LogColumn.of,
        decision_text_inj]

theorem selectLogs_bounds (filters : AuditLogFilters) :
    (selectLogs filters).bound (selectLogs filters).limitIdx = filters.limit ∧
      (selectLogs filters).bound (selectLogs filters).offsetIdx = filters.offset := by
  obtain ⟨userId, decision, limit, offset⟩ := filters
  cases userId with
  | none =>
    cases decision with
    | none => exact ⟨rfl, rfl⟩
    | some d => exact ⟨rfl, rfl⟩
  | some u =>
    cases decision with
    | none => exact ⟨rfl, rfl⟩
    | some d => exact ⟨rfl, rfl⟩

/-- What the database may answer, in the caller's terms. -/
theorem answers_iff {table : AuditTable} {filters : AuditLogFilters} {out : List LogRow} :
    (selectLogs filters).Answers table out ↔
      ∃ ordered, Arranged AuditLogRow.created_at (matching table filters) ordered ∧
        out = ((ordered.drop filters.offset).take filters.limit).map
          (SelectLogs.counted (matching table filters).length) := by
  unfold SelectLogs.Answers
  rw [selectLogs_selects, (selectLogs_bounds filters).1, (selectLogs_bounds filters).2]
  rfl

variable {table : AuditTable}

/-- The total of a page is on its first row, if it has one. -/
theorem total_of_answer (platform : Platform) {filters : AuditLogFilters} {out : List LogRow}
    (hlimit : 1 ≤ filters.limit) (h : (selectLogs filters).Answers table out) :
    (match out.head? with
      | some row => platform.toNumber row.total_count
      | none => JsNum.num 0) =
    if filters.offset < (matching table filters).length
      then platform.toNumber (toString (matching table filters).length) else .num 0 := by
  obtain ⟨ordered, harranged, rfl⟩ := answers_iff.mp h
  have hlen := harranged.perm.length_eq
  split_ifs with hoffset
  · obtain ⟨row, hrow⟩ : ∃ row, ordered[filters.offset]? = some row :=
      ⟨_, List.getElem?_eq_getElem (hlen ▸ hoffset)⟩
    have hhead : ((ordered.drop filters.offset).take filters.limit).head? = some row := by
      rw [List.head?_take, if_neg (by omega), List.head?_drop, hrow]
    rw [List.head?_map, hhead]
    rfl
  · rw [List.drop_of_length_le (by rw [hlen]; exact not_lt.mp hoffset), List.take_nil]
    rfl

/-- The total is the number of matching rows exactly if there are none or the page has some, as far
as `Number` reads the count. -/
theorem total_exact_iff (platform : Platform) (table : AuditTable)
    (query : SelectLogs → Except Err (List LogRow))
    (hquery : ∀ s, ∃ out, query s = .ok out ∧ s.Answers table out) (q : AuditLogsQueryDto) :
    (∃ page, queryLogs platform query q = .ok page ∧
      page.total = .num (matching table q.filters).length ∧
      ∃ rows : List AuditLogRow, rows.Subperm (matching table q.filters) ∧ rows.length ≤ q.filters.limit ∧
        page.items = rows.map (toAuditLog platform)) ↔
    (matching table q.filters).length = 0 ∨
      (q.filters.offset < (matching table q.filters).length ∧
        platform.toNumber (toString (matching table q.filters).length) =
          .num (matching table q.filters).length) := by
  have hlimit : 1 ≤ q.filters.limit := by
    unfold AuditLogsQueryDto.filters
    dsimp only
    cases q.limit with
    | none => decide
    | some n => exact n.2.1
  obtain ⟨out, hout, hanswer⟩ := hquery (selectLogs q.filters)
  have htotal := total_of_answer platform hlimit hanswer
  have hitems : ∃ rows : List AuditLogRow, rows.Subperm (matching table q.filters) ∧ rows.length ≤ q.filters.limit ∧
      (out.map fun row => toAuditLog platform row.toAuditLogRow) =
        rows.map (toAuditLog platform) := by
    obtain ⟨ordered, harranged, rfl⟩ := answers_iff.mp hanswer
    refine ⟨(ordered.drop q.filters.offset).take q.filters.limit, ?_, List.length_take_le _ _, ?_⟩
    · have hsub := (List.take_sublist q.filters.limit _).trans
        (List.drop_sublist q.filters.offset ordered)
      exact hsub.subperm.trans harranged.perm.subperm
    · rw [List.map_map]
      rfl
  have hpage : queryLogs platform query q = .ok
      { items := out.map fun row => toAuditLog platform row.toAuditLogRow,
        total := if q.filters.offset < (matching table q.filters).length
          then platform.toNumber (toString (matching table q.filters).length) else .num 0 } := by
    rw [queryLogs, findLogs, hout, ← htotal]
    rfl
  rw [hpage]
  constructor
  · rintro ⟨page, hok, hcount, -⟩
    obtain rfl := Except.ok.inj hok
    dsimp only at hcount
    split_ifs at hcount with hoffset
    · exact Or.inr ⟨hoffset, hcount⟩
    · refine Or.inl ?_
      have hzero := (JsNum.num.inj hcount).symm
      exact_mod_cast hzero
  · intro h
    refine ⟨_, rfl, ?_, hitems⟩
    dsimp only
    rcases h with hzero | ⟨hoffset, hnumber⟩
    · rw [if_neg (by omega), hzero]
      rfl
    · rw [if_pos hoffset, hnumber]

/-- The pages at the multiples of `limit` have every matching row once, whatever the database makes
of rows with the same `created_at`, exactly if no group of these lies across a page boundary. -/
theorem log_partition_iff (table : AuditTable) (userId : Option String)
    (decision : Option Decision) (limit : ℕ) (hlimit : 1 ≤ limit) :
    (∀ answers : ℕ → List LogRow,
      (∀ k, (selectLogs ⟨userId, decision, limit, k * limit⟩).Answers table (answers k)) →
      ∀ n, (table.rows.filter (Matches userId decision)).length ≤ n * limit →
        ((List.range n).flatMap fun k => (answers k).map LogRow.toAuditLogRow).Perm
          (table.rows.filter (Matches userId decision))) ↔
    BoundariesClear AuditLogRow.created_at (table.rows.filter (Matches userId decision)) limit := by
  generalize hrows : table.rows.filter (Matches userId decision) = rows
  have hnodup : rows.Nodup := hrows ▸ (table.ids.of_map _).filter _
  have hanswers : ∀ k out, (selectLogs ⟨userId, decision, limit, k * limit⟩).Answers table out ↔
      ∃ ordered, Arranged AuditLogRow.created_at rows ordered ∧
        out = (pageOf limit k ordered).map (SelectLogs.counted rows.length) := by
    intro k out
    rw [answers_iff, matching, hrows]
    rfl
  have hrow : ∀ l : List AuditLogRow,
      (l.map (SelectLogs.counted rows.length)).map LogRow.toAuditLogRow = l := fun l => by
    rw [List.map_map]
    exact List.map_id l
  rw [← pages_partition hlimit hnodup]
  constructor
  · intro hall orders horders n hn
    have hperm := hall _ (fun k => (hanswers k _).mpr ⟨orders k, horders k, rfl⟩) n hn
    simpa only [pagesOf, hrow] using hperm
  · intro hall answers h n hn
    choose orders horders hpage using fun k => (hanswers k (answers k)).mp (h k)
    have hperm := hall orders horders n hn
    simpa only [pagesOf, hpage, hrow] using hperm

/-- a database that answers in the order of the table -/
def inOrder (table : AuditTable) (s : SelectLogs) : Except Err (List LogRow) :=
  .ok ((((table.rows.filter s.selects).drop (s.bound s.offsetIdx)).take (s.bound s.limitIdx)).map
    (SelectLogs.counted (table.rows.filter s.selects).length))

theorem inOrder_answers {table : AuditTable}
    (h : table.rows.Pairwise fun a b => b.created_at ≤ a.created_at) (s : SelectLogs) :
    ∃ out, inOrder table s = .ok out ∧ s.Answers table out :=
  ⟨_, rfl, _, ⟨List.Perm.refl _, h.filter _⟩, rfl⟩

def sampleLog (id : String) (decision : Decision) : AuditLogRow :=
  { id := id, user_id := "alice", resource := "/users/1", action := "GET", decision := decision,
    trust_score := none, ja4h_fingerprint := none, ip_address := none, user_agent := none,
    request_id := none, event_type := none, created_at := 1700000000000000 }

/-- two rows of one instant -/
def sampleTable : AuditTable where
  rows := [sampleLog "2" .deny, sampleLog "1" .allow]
  ids := by decide

/-- `Number` on decimal digits -/
def digitsPlatform : Platform where
  numToString _ := ""
  toNumber s := .num (s.toList.foldl (fun n c => 10 * n + (c.toNat - '0'.toNat)) 0 : ℕ)
  toISOString _ := .ok ""

theorem total_exact_sample :
    ∃ page, queryLogs digitsPlatform (inOrder sampleTable) { limit := some ⟨1, by decide⟩ } =
        .ok page ∧ page.total = .num 2 ∧
      ∃ rows : List AuditLogRow, rows.Subperm (matching sampleTable ⟨none, none, 1, 0⟩) ∧
        rows.length ≤ 1 ∧ page.items = rows.map (toAuditLog digitsPlatform) :=
  (total_exact_iff digitsPlatform sampleTable (inOrder sampleTable)
    (inOrder_answers (by decide)) { limit := some ⟨1, by decide⟩ }).mpr
      (Or.inr ⟨by decide, by decide +kernel⟩)

/-- Past the last page the total is 0, with two rows that match. -/
theorem total_zero_past_end :
    (∃ page, queryLogs digitsPlatform (inOrder sampleTable) { offset := some 2 } = .ok page ∧
      page.total = .num 0 ∧ page.items = []) ∧
    (matching sampleTable ⟨none, none, 50, 2⟩).length = 2 ∧
    ¬ ∃ page, queryLogs digitsPlatform (inOrder sampleTable) { offset := some 2 } = .ok page ∧
      page.total = .num 2 := by
  have hpage : queryLogs digitsPlatform (inOrder sampleTable) { offset := some 2 } =
      .ok { items := [], total := .num 0 } := rfl
  refine ⟨⟨_, hpage, rfl, rfl⟩, by decide, ?_⟩
  rintro ⟨page, hok, htotal⟩
  rw [hpage] at hok
  obtain rfl := Except.ok.inj hok
  exact absurd htotal (by decide)

/-- Pages of two rows: no boundary inside the only group. -/
theorem log_partition_sample :
    (sampleTable.rows.filter (Matches none none)).length = 2 ∧ ∀ answers : ℕ → List LogRow,
      (∀ k, (selectLogs ⟨none, none, 2, k * 2⟩).Answers sampleTable (answers k)) →
      ∀ n, (sampleTable.rows.filter (Matches none none)).length ≤ n * 2 →
        ((List.range n).flatMap fun k => (answers k).map LogRow.toAuditLogRow).Perm
          (sampleTable.rows.filter (Matches none none)) := by
  refine ⟨by decide, (log_partition_iff sampleTable none none 2 (by decide)).mpr ?_⟩
  have hcounts : ∀ r ∈ sampleTable.rows.filter (Matches none none),
      newer AuditLogRow.created_at (sampleTable.rows.filter (Matches none none)) r = 0 ∧
      tied AuditLogRow.created_at (sampleTable.rows.filter (Matches none none)) r = 2 := by decide
  intro r hr k hk
  obtain ⟨hnewer, htied⟩ := hcounts r hr
  omega

/-- Pages of one row each, and the database gives the same row first both times. -/
theorem log_partition_fails :
    ∃ answers : ℕ → List LogRow,
      (∀ k, (selectLogs ⟨none, none, 1, k * 1⟩).Answers sampleTable (answers k)) ∧
      ((answers 0).map (·.id) = ["2"] ∧ (answers 1).map (·.id) = ["2"]) ∧
      ¬ ((List.range 2).flatMap fun k => (answers k).map LogRow.toAuditLogRow).Perm
        (sampleTable.rows.filter (Matches none none)) := by
  -- the second query has the two rows the other way round
  let orders : ℕ → List AuditLogRow := fun k =>
    if k = 1 then [sampleLog "1" .allow, sampleLog "2" .deny] else sampleTable.rows
  have harranged : ∀ k, Arranged AuditLogRow.created_at
      (matching sampleTable ⟨none, none, 1, k * 1⟩) (orders k) := by
    intro k
    have hrows : matching sampleTable ⟨none, none, 1, k * 1⟩ = sampleTable.rows := rfl
    rw [hrows]
    dsimp only [orders]
    split_ifs
    · exact ⟨List.Perm.swap _ _ _, by decide⟩
    · exact ⟨List.Perm.refl _, by decide⟩
  refine ⟨fun k => (pageOf 1 k (orders k)).map (SelectLogs.counted 2),
    fun k => answers_iff.mpr ⟨orders k, harranged k, rfl⟩, ⟨by decide, by decide⟩, ?_⟩
  intro hperm
  exact absurd (hperm.nodup_iff.mpr (by decide)) (by decide)

end AuditRepository

end ZTG
