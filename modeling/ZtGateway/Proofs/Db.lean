import ZtGateway.Spec.Db

/-! What `DbService` commits, whatever its callers do and however their calls interleave: each
transaction as a whole or not at all, as its caller is told. -/

namespace ZTG

namespace DbService

variable {ι S Rows E α : Type}

/-- the session of one caller -/
abbrev Client (ι S Rows E α : Type) := Session (DbCall ι S) (DbReply Rows E) (Except E α)

/-! ## What a caller sees -/

@[simp] theorem statements_snoc (tr : DbTrace ι S Rows E) (e : DbEvent ι S Rows E) :
    statements (tr ++ [e]) = statements tr ++ (statement? e).toList := by
  rcases h : statement? e <;> simp [statements, h]

@[simp] theorem spoiled_snoc (tr : DbTrace ι S Rows E) (e : DbEvent ι S Rows E) :
    spoiled (tr ++ [e]) = (spoiled tr || isSpoiled e) := by
  simp [spoiled]

@[simp] theorem unconfirmed_snoc (tr : DbTrace ι S Rows E) (e : DbEvent ι S Rows E) :
    unconfirmed (tr ++ [e]) = (unconfirmed tr || isUnconfirmed e) := by
  simp [unconfirmed]

/-- what the caller was told against what it has committed -/
def Settled (job : DbJob S Rows E α) (tr : DbTrace ι S Rows E) (mine : List (List S)) :
    Except E α → Prop
  | .ok _ => (job.Propagates → spoiled tr = false) ∧
      mine = if spoiled tr then [] else [statements tr]
  | .error _ => mine = [] ∨ unconfirmed tr = true ∧ mine = [statements tr]

/-! ## Where a caller is -/

/-- Where a caller is: its calls so far and what is left of its program, its connection as the
server has it, and its transactions. -/
inductive At (i : ι) : DbJob S Rows E α → Client ι S Rows E α → Option (ℕ × Block S) →
    List (List S) → Prop
  | fresh (job) : At i job ⟨[], job.run i⟩ none []
  | connected (fn tr c b) (hb : b.Clean) (hss : statements tr = []) (hsp : spoiled tr = false) :
      At i (.tx fn) ⟨tr, (attempt i c fn).bind (release i c)⟩ (some (c, b)) []
  | working (fn tr c b p)
      (hb : b = .opened (statements tr) ∧ spoiled tr = false ∨
        b = .failed ∧ spoiled tr = true ∨ b = .closed)
      (hp : fn.Propagates → p.Propagates ∧
        (spoiled tr = true → ∃ err, p = .ret (.error err))) :
      At i (.tx fn) ⟨tr, ((onClient i c p).bind (finish i c)).bind (release i c)⟩ (some (c, b)) []
  | failing (fn tr c b err mine) (h : Settled (.tx fn) tr mine (.error err : Except E α)) :
      At i (.tx fn) ⟨tr, (rollback i c err).bind (release i c)⟩ (some (c, b)) mine
  | leaving (fn tr c b r mine) (hb : b.Clean) (h : Settled (.tx fn) tr mine r) :
      At i (.tx fn) ⟨tr, release i c r⟩ (some (c, b)) mine
  | done (job tr r mine) (h : Settled job tr mine r) : At i job ⟨tr, .ret r⟩ none mine

variable {job : DbJob S Rows E α} {l l' : Client ι S Rows E α} {mine : List (List S)} {i j : ι}
  {held : Option (ℕ × Block S)} {c : ℕ} {b : Block S}

/-- A call that is no statement and no COMMIT settles nothing anew. -/
theorem Settled.quiet {tr : DbTrace ι S Rows E} {r : Except E α} {e : DbEvent ι S Rows E}
    (h : Settled job tr mine r) (hst : statement? e = none) (hsp : isSpoiled e = false)
    (hun : isUnconfirmed e = false) : Settled job (tr ++ [e]) mine r := by
  cases r with
  | ok _ => simpa [Settled, hst, hsp] using h
  | error _ => simpa [Settled, hst, hun] using h

theorem At.broken (h : At i job l (some (c, b)) mine) :
    At i job l (some (c, .closed)) mine := by
  cases h with
  | connected fn tr c b hb hss hsp => exact .connected _ _ _ _ (.inr rfl) hss hsp
  | working fn tr c b p hb hp => exact .working _ _ _ _ _ (.inr (.inr rfl)) hp
  | failing fn tr c b err mine h => exact .failing _ _ _ _ _ _ h
  | leaving fn tr c b r mine hb h => exact .leaving _ _ _ _ _ _ (.inr rfl) h

theorem At.whole (h : At i job l held mine) : mine = [] ∨ mine = [statements l.trace] := by
  have hsettled : ∀ {tr : DbTrace ι S Rows E} {r : Except E α} {job : DbJob S Rows E α},
      Settled job tr mine r → mine = [] ∨ mine = [statements tr] := by
    intro tr r job h
    cases r with
    | ok _ =>
      rw [h.2]
      cases spoiled tr
      · exact .inr rfl
      · exact .inl rfl
    | error _ => exact h.imp id fun h => h.2
  cases h with
  | fresh => exact .inl rfl
  | connected => exact .inl rfl
  | working => exact .inl rfl
  | failing fn tr c b err mine h => exact hsettled h
  | leaving fn tr c b r mine hb h => exact hsettled h
  | done job tr r mine h => exact hsettled h

/-- A caller that has its answer has given its connection back. -/
theorem At.ended (h : At i job l held mine) {r : Except E α} (hr : l.rest = .ret r) :
    held = none ∧ Settled job l.trace mine r := by
  cases h with
  | fresh => cases job <;> cases hr
  | connected => cases hr
  | working fn tr c b p hb hp => rcases p with (err | value) | ⟨st, next⟩ <;> cases hr
  | failing => cases hr
  | leaving => cases hr
  | done job tr r' mine h =>
    cases hr
    exact ⟨rfl, h⟩

/-! ## Connections -/

variable {s s' : Server ι S} {k : Luck Rows E} {q : Sql S}

/-- Connections that nobody has are outside any transaction. -/
def Tidy (s : Server ι S) : Prop := ∀ c, s.holder c = none → (s.blocks c).Clean

theorem take_blocks_self : (s.take k i c q).2.blocks c = ((s.blocks c).take q k.fate).block :=
  Function.update_self ..

theorem take_blocks_ne {c' : ℕ} (h : c' ≠ c) : (s.take k i c q).2.blocks c' = s.blocks c' :=
  Function.update_of_ne h ..

@[simp] theorem take_holder : (s.take k i c q).2.holder = s.holder := rfl

theorem take_tidy (hs : Tidy s) (hc : s.holder c = some i) : Tidy (s.take k i c q).2 := by
  intro c' hc'
  have hne : c' ≠ c := by
    rintro rfl
    rw [take_holder, hc] at hc'
    cases hc'
  rw [take_blocks_ne hne]
  exact hs c' hc'

theorem free_holder (h : s.free k = some c) : s.holder c = none := by
  obtain ⟨-, hc⟩ := Option.filter_eq_some_iff.mp h
  simpa using hc

theorem disconnect_tidy (hs : Tidy s) (c : ℕ) : Tidy (s.disconnect c) := by
  intro c' hc'
  by_cases h : c' = c
  · subst h
    exact .inr (Function.update_self ..)
  · show Block.Clean (Function.update s.blocks c .closed c')
    rw [Function.update_of_ne h]
    exact hs c' hc'

variable [DecidableEq ι]

/-- The caller has this connection and no other, and these are its transactions. -/
structure Has (s : Server ι S) (i : ι) (held : Option (ℕ × Block S)) (mine : List (List S)) :
    Prop where
  only : ∀ c, s.holder c = some i ↔ held.map (·.1) = some c
  block : ∀ x ∈ held, s.blocks x.1 = x.2
  entries : s.entries i = mine

/-- What another caller's turn can do to a caller: no more than break its connection. -/
structure Untouched (s s' : Server ι S) (j : ι) : Prop where
  holder : ∀ c, s'.holder c = some j ↔ s.holder c = some j
  blocks : ∀ c, s.holder c = some j → s'.blocks c = s.blocks c ∨ s'.blocks c = .closed
  entries : s'.entries j = s.entries j

theorem Untouched.refl (s : Server ι S) (j : ι) : Untouched s s j :=
  ⟨fun _ => Iff.rfl, fun _ _ => .inl rfl, rfl⟩

/-- A command on a connection changes its block, and the caller's transactions. -/
theorem take_entries (s : Server ι S) (k : Luck Rows E) (i : ι) (c : ℕ) (q : Sql S) (j : ι) :
    (s.take k i c q).2.entries j = s.entries j ++
      if i = j then ((s.blocks c).take q k.fate).committed.toList else [] := by
  rcases h : ((s.blocks c).take q k.fate).committed with _ | ss <;> by_cases hij : i = j <;>
    simp [Server.take, Server.entries, h, hij]

/-- A command on a caller's own connection, or on one that is free, does not touch the others. -/
theorem take_untouched (hc : s.holder c = some i ∨ s.holder c = none) (hj : j ≠ i) :
    Untouched s (s.take k i c q).2 j where
  holder _ := Iff.rfl
  blocks c' hc' := by
    have hne : c' ≠ c := by
      rintro rfl
      rcases hc with hc | hc
      · exact hj (Option.some.inj (hc'.symm.trans hc))
      · simp [hc] at hc'
    exact .inl (take_blocks_ne hne)
  entries := by
    rw [take_entries, if_neg (Ne.symm hj), List.append_nil]

theorem take_has (h : Has s i (some (c, b)) mine) :
    Has (s.take k i c q).2 i (some (c, (b.take q k.fate).block))
      (mine ++ (b.take q k.fate).committed.toList) where
  only := h.only
  block := by
    rintro x ⟨rfl⟩
    rw [take_blocks_self, h.block _ rfl]
  entries := by
    rw [take_entries, if_pos rfl, h.entries, h.block _ rfl]

/-- Where a caller is, over the server. -/
def Stands (i : ι) (job : DbJob S Rows E α) (l : Client ι S Rows E α) (s : Server ι S) : Prop :=
  ∃ held mine, At i job l held mine ∧ Has s i held mine

theorem Stands.untouched (h : Stands i job l s) (hs : Untouched s s' i) : Stands i job l s' := by
  obtain ⟨held, mine, hat, hhas⟩ := h
  rcases held with _ | ⟨c, b⟩
  · refine ⟨none, mine, hat, fun c => (hs.holder c).trans (hhas.only c), ?_, ?_⟩
    · rintro x ⟨⟩
    · rw [hs.entries, hhas.entries]
  · have hc : s.holder c = some i := (hhas.only c).mpr rfl
    have hent : s'.entries i = mine := hs.entries.trans hhas.entries
    rcases hs.blocks c hc with heq | hclosed
    · refine ⟨some (c, b), mine, hat, fun c => (hs.holder c).trans (hhas.only c), ?_, hent⟩
      rintro x ⟨rfl⟩
      exact heq.trans (hhas.block _ rfl)
    · refine ⟨some (c, .closed), mine, hat.broken, fun c => (hs.holder c).trans (hhas.only c), ?_,
        hent⟩
      rintro x ⟨rfl⟩
      exact hclosed

/-- What one turn of a caller leaves behind. -/
structure Moved (i : ι) (job : DbJob S Rows E α) (l' : Client ι S Rows E α)
    (s s' : Server ι S) : Prop where
  own : Stands i job l' s'
  tidy : Tidy s'
  others : ∀ j, j ≠ i → Untouched s s' j

theorem disconnect_untouched (s : Server ι S) (c : ℕ) (j : ι) :
    Untouched s (s.disconnect c) j where
  holder _ := Iff.rfl
  blocks c' _ := by
    by_cases h : c' = c
    · subst h
      exact .inr (Function.update_self ..)
    · exact .inl (Function.update_of_ne h ..)
  entries := rfl

/-! ## One turn -/

/-- A command of a caller on its connection. -/
theorem query_turn {tr : DbTrace ι S Rows E}
    {f : Except E Rows → Prog (DbCall ι S) (DbReply Rows E) (Except E α)}
    (hhas : Has s i (some (c, b)) mine) (hs : Tidy s)
    (hact : Session.act Server.serve Server.disconnect (.call k)
      (⟨tr, .call (.query i c q) f⟩ : Client ι S Rows E α) s = some (l', s'))
    (hok : (b.take q k.fate).confirmed = true → At i job
      ⟨tr ++ [⟨.query i c q, (.ok k.rows : Except E Rows)⟩], f (.ok k.rows)⟩
      (some (c, (b.take q k.fate).block)) (mine ++ (b.take q k.fate).committed.toList))
    (herr : (b.take q k.fate).confirmed = false → At i job
      ⟨tr ++ [⟨.query i c q, (.error k.error : Except E Rows)⟩], f (.error k.error)⟩
      (some (c, (b.take q k.fate).block)) (mine ++ (b.take q k.fate).committed.toList)) :
    Moved i job l' s s' := by
  have hc : s.holder c = some i := (hhas.only c).mpr rfl
  have hans : (s.take k i c q).1 =
      if (b.take q k.fate).confirmed then .ok k.rows else .error k.error := by
    have hblock : s.blocks c = b := hhas.block _ rfl
    rw [← hblock]
    rfl
  obtain ⟨rfl, rfl⟩ := Prod.mk.inj (Option.some.inj hact)
  refine ⟨⟨_, _, ?_, take_has hhas⟩, take_tidy hs hc, fun j hj => take_untouched (.inl hc) hj⟩
  show At i job ⟨tr ++ [⟨.query i c q, (s.take k i c q).1⟩], f (s.take k i c q).1⟩ _ _
  rw [hans]
  cases hconf : (b.take q k.fate).confirmed with
  | true => exact hok hconf
  | false => exact herr hconf

/-- The ROLLBACK of the `catch`. -/
theorem failing_turn {tr : DbTrace ι S Rows E} {fn : TxCallback S Rows E α} {err : E}
    (hhas : Has s i (some (c, b)) mine) (hs : Tidy s)
    (h : Settled (.tx fn) tr mine (.error err : Except E α))
    (hact : Session.act Server.serve Server.disconnect (.call k)
      (⟨tr, (rollback i c err).bind (release i c)⟩ : Client ι S Rows E α) s = some (l', s')) :
    Moved i (.tx fn) l' s s' := by
  obtain ⟨hcom, hclean⟩ := b.take_rollback k.fate
  refine query_turn hhas hs hact (fun _ => ?_) fun _ => ?_
  all_goals
    rw [hcom, Option.toList_none, List.append_nil]
    exact .leaving _ _ _ _ _ _ hclean (h.quiet rfl rfl rfl)

theorem begin_turn {tr : DbTrace ι S Rows E} {fn : TxCallback S Rows E α}
    (hhas : Has s i (some (c, b)) []) (hs : Tidy s) (hb : b.Clean) (hss : statements tr = [])
    (hsp : spoiled tr = false)
    (hact : Session.act Server.serve Server.disconnect (.call k)
      (⟨tr, (attempt i c fn).bind (release i c)⟩ : Client ι S Rows E α) s = some (l', s')) :
    Moved i (.tx fn) l' s s' := by
  obtain ⟨hcom, hblk⟩ := Block.take_begin k.fate hb
  refine query_turn hhas hs hact (fun hconf => ?_) fun _ => ?_
  · rw [hconf, if_pos rfl] at hblk
    rw [hcom, hblk]
    refine .working fn _ c _ fn (.inl ⟨?_, ?_⟩) fun hfn => ⟨hfn, fun h => ?_⟩
    · simp [hss, statement?]
    · simp [hsp, isSpoiled]
    · simp [hsp, isSpoiled] at h
  · rw [hcom]
    exact .failing fn _ c _ k.error [] (.inl rfl)

theorem commit_turn {tr : DbTrace ι S Rows E} {fn : TxCallback S Rows E α} {value : α}
    (hhas : Has s i (some (c, b)) []) (hs : Tidy s)
    (hb : b = .opened (statements tr) ∧ spoiled tr = false ∨
      b = .failed ∧ spoiled tr = true ∨ b = .closed)
    (hp : fn.Propagates → spoiled tr = false)
    (hact : Session.act Server.serve Server.disconnect (.call k)
      (⟨tr, (finish i c (.ok value)).bind (release i c)⟩ : Client ι S Rows E α) s =
        some (l', s')) : Moved i (.tx fn) l' s s' := by
  rcases hb with ⟨rfl, hsp⟩ | hover
  · obtain ⟨hclean, hcom⟩ := Block.take_commit_opened (statements tr) k.fate
    refine query_turn hhas hs hact (fun hconf => ?_) fun hconf => ?_
    · rcases hcom with hcom | ⟨hno, -⟩
      · rw [hcom]
        refine .leaving fn _ c _ (.ok value) _ hclean ⟨fun _ => ?_, ?_⟩
        · simp [hsp, isSpoiled]
        · simp [hsp, isSpoiled, statement?]
      · rw [hconf] at hno
        cases hno
    · refine .failing fn _ c _ k.error _ ?_
      rcases hcom with hcom | ⟨-, hcom⟩
      · rw [hcom]
        exact .inr ⟨by simp [isUnconfirmed], by simp [statement?]⟩
      · rw [hcom]
        exact .inl rfl
  · have hover' : b = .failed ∨ b = .closed := hover.imp (fun h => h.1) id
    obtain ⟨hclean, hcom, hclosed⟩ := Block.take_commit_over k.fate hover'
    refine query_turn hhas hs hact (fun hconf => ?_) fun _ => ?_
    · rcases hover with ⟨-, hsp⟩ | rfl
      · rw [hcom]
        refine .leaving fn _ c _ (.ok value) _ hclean ⟨fun hfn => ?_, ?_⟩
        · rw [hp hfn] at hsp
          cases hsp
        · simp [hsp]
      · rw [hclosed rfl] at hconf
        cases hconf
    · rw [hcom]
      exact .failing fn _ c _ k.error _ (.inl rfl)

theorem exec_turn {tr : DbTrace ι S Rows E} {fn : TxCallback S Rows E α} {st : S}
    {next : Except E Rows → TxCallback S Rows E α}
    (hhas : Has s i (some (c, b)) []) (hs : Tidy s)
    (hb : b = .opened (statements tr) ∧ spoiled tr = false ∨
      b = .failed ∧ spoiled tr = true ∨ b = .closed)
    (hp : fn.Propagates → TxCallback.Propagates (.call st next) ∧ spoiled tr = false)
    (hact : Session.act Server.serve Server.disconnect (.call k)
      (⟨tr, ((onClient i c (.call st next)).bind (finish i c)).bind (release i c)⟩ :
        Client ι S Rows E α) s = some (l', s')) : Moved i (.tx fn) l' s s' := by
  have hthrown : fn.Propagates → TxCallback.Propagates (next (.error k.error)) ∧
      (spoiled (tr ++ [⟨.query i c (.exec st), (.error k.error : Except E Rows)⟩]) = true →
        ∃ err, next (.error k.error) = .ret (.error err)) := by
    intro hfn
    obtain ⟨err, herr⟩ := (hp hfn).1.1 k.error
    rw [herr]
    exact ⟨trivial, fun _ => ⟨err, rfl⟩⟩
  rcases hb with ⟨rfl, hsp⟩ | hover
  · obtain ⟨hcom, hblk⟩ := Block.take_exec_opened (statements tr) k.fate st
    refine query_turn hhas hs hact (fun hconf => ?_) fun hconf => ?_
    · rw [hconf, if_pos rfl] at hblk
      rw [hcom, hblk]
      refine .working fn _ c _ (next (.ok k.rows)) (.inl ⟨?_, ?_⟩) fun hfn =>
        ⟨(hp hfn).1.2 _, fun h => ?_⟩
      · simp [statement?]
      · simp [hsp, isSpoiled]
      · simp [hsp, isSpoiled] at h
    · rw [hconf, if_neg (by simp)] at hblk
      rw [hcom]
      refine .working fn _ c _ (next (.error k.error)) (.inr ?_) hthrown
      exact hblk.imp (fun h => ⟨h, by simp [isSpoiled]⟩) id
  · have hover' : b = .failed ∨ b = .closed := hover.imp (fun h => h.1) id
    obtain ⟨hcom, hno, hblk⟩ := Block.take_exec_over k.fate st hover'
    refine query_turn hhas hs hact (fun hconf => ?_) fun _ => ?_
    · rw [hno] at hconf
      cases hconf
    · rw [hcom]
      refine .working fn _ c _ (next (.error k.error)) (.inr ?_) hthrown
      rcases hblk with heq | hclosed
      · rw [heq]
        exact hover'.imp (fun h => ⟨h, by simp [isSpoiled]⟩) id
      · exact .inr hclosed

theorem release_turn {tr : DbTrace ι S Rows E} {fn : TxCallback S Rows E α} {r : Except E α}
    (hhas : Has s i (some (c, b)) mine) (hs : Tidy s) (hb : b.Clean)
    (h : Settled (.tx fn) tr mine r)
    (hact : Session.act Server.serve Server.disconnect (.call k)
      (⟨tr, release i c r⟩ : Client ι S Rows E α) s = some (l', s')) :
    Moved i (.tx fn) l' s s' := by
  have hc : s.holder c = some i := (hhas.only c).mpr rfl
  obtain ⟨rfl, rfl⟩ := Prod.mk.inj (Option.some.inj hact)
  refine ⟨⟨none, mine, .done _ _ _ _ (h.quiet rfl rfl rfl), ?_, ?_, hhas.entries⟩, ?_, ?_⟩
  · intro c'
    show Function.update s.holder c none c' = some i ↔ _
    by_cases hcc : c' = c
    · subst hcc
      simp
    · rw [Function.update_of_ne hcc, hhas.only]
      simp [Ne.symm hcc]
  · rintro x ⟨⟩
  · intro c' hc'
    by_cases hcc : c' = c
    · subst hcc
      show (s.blocks c').Clean
      rw [hhas.block _ rfl]
      exact hb
    · have hfree : Function.update s.holder c none c' = none := hc'
      rw [Function.update_of_ne hcc] at hfree
      exact hs c' hfree
  · intro j hj
    refine ⟨fun c' => ?_, fun _ _ => .inl rfl, rfl⟩
    show Function.update s.holder c none c' = some j ↔ _
    by_cases hcc : c' = c
    · subst hcc
      rw [Function.update_self, hc]
      simp [Ne.symm hj]
    · rw [Function.update_of_ne hcc]

theorem connect_turn {fn : TxCallback S Rows E α} (hhas : Has s i none []) (hs : Tidy s)
    (hact : Session.act Server.serve Server.disconnect (.call k)
      (⟨[], tx i fn⟩ : Client ι S Rows E α) s = some (l', s')) : Moved i (.tx fn) l' s s' := by
  obtain ⟨rfl, rfl⟩ := Prod.mk.inj (Option.some.inj hact)
  simp only [Server.serve]
  cases hfree : s.free k with
  | none =>
    refine ⟨⟨none, [], .done _ _ (.error k.error) _ (.inl rfl), hhas⟩, hs, fun j _ => .refl s j⟩
  | some c =>
    have hnone := free_holder hfree
    refine ⟨⟨some (c, s.blocks c), [], .connected fn _ c _ (hs c hnone) rfl rfl, ?_, ?_,
      hhas.entries⟩, ?_, ?_⟩
    · intro c'
      show Function.update s.holder c (some i) c' = some i ↔ _
      by_cases hcc : c' = c
      · subst hcc
        simp
      · rw [Function.update_of_ne hcc, hhas.only]
        simp [Ne.symm hcc]
    · rintro x ⟨rfl⟩
      rfl
    · intro c' hc'
      have hfree' : Function.update s.holder c (some i) c' = none := hc'
      by_cases hcc : c' = c
      · subst hcc
        exact hs c' hnone
      · rw [Function.update_of_ne hcc] at hfree'
        exact hs c' hfree'
    · intro j hj
      refine ⟨fun c' => ?_, fun _ _ => .inl rfl, rfl⟩
      show Function.update s.holder c (some i) c' = some j ↔ _
      by_cases hcc : c' = c
      · subst hcc
        rw [Function.update_self, hnone]
        simp [Ne.symm hj]
      · rw [Function.update_of_ne hcc]

theorem pool_query_turn {st : S} {read : Rows → α} (hhas : Has s i none []) (hs : Tidy s)
    (hact : Session.act Server.serve Server.disconnect (.call k)
      (⟨[], DbJob.run i (.query st read)⟩ : Client ι S Rows E α) s = some (l', s')) :
    Moved i (.query st read) l' s s' := by
  obtain ⟨rfl, rfl⟩ := Prod.mk.inj (Option.some.inj hact)
  simp only [Server.serve]
  cases hfree : s.free k with
  | none =>
    exact ⟨⟨none, [], .done _ _ (.error k.error) _ (.inl rfl), hhas⟩, hs, fun j _ => .refl s j⟩
  | some c =>
    have hnone := free_holder hfree
    obtain ⟨hclean, hcom⟩ := Block.take_exec_clean k.fate st (hs c hnone)
    refine ⟨⟨none, _, ?_, hhas.only, ?_, rfl⟩, ?_, fun j hj => take_untouched (.inr hnone) hj⟩
    · have hent : (s.take k i c (.exec st)).2.entries i =
          ((s.blocks c).take (.exec st) k.fate).committed.toList := by
        rw [take_entries, if_pos rfl, hhas.entries, List.nil_append]
      rw [hent]
      show At i (.query st read) ⟨_, .ret ((s.take k i c (.exec st)).1.map read)⟩ none _
      refine .done _ _ _ _ ?_
      have hans : (s.take k i c (.exec st)).1 =
          if ((s.blocks c).take (.exec st) k.fate).confirmed then .ok k.rows
          else .error k.error := rfl
      rw [hans]
      cases hconf : ((s.blocks c).take (.exec st) k.fate).confirmed with
      | true =>
        rcases hcom with hcom | ⟨hno, -⟩
        · rw [hcom]
          exact ⟨fun _ => rfl, rfl⟩
        · rw [hconf] at hno
          cases hno
      | false =>
        rcases hcom with hcom | ⟨-, hcom⟩
        · rw [hcom]
          exact .inr ⟨rfl, rfl⟩
        · rw [hcom]
          exact .inl rfl
    · rintro x ⟨⟩
    · intro c' hc'
      by_cases hcc : c' = c
      · subst hcc
        rw [take_blocks_self]
        exact hclean
      · rw [take_blocks_ne hcc]
        exact hs c' hc'

/-- A caller's own call, wherever it is. -/
theorem At.turn (hat : At i job l held mine) (hhas : Has s i held mine) (hs : Tidy s)
    (hact : Session.act Server.serve Server.disconnect (.call k) l s = some (l', s')) :
    Moved i job l' s s' := by
  cases hat with
  | fresh =>
    cases job with
    | tx fn => exact connect_turn hhas hs hact
    | query st read => exact pool_query_turn hhas hs hact
  | connected fn tr c b hb hss hsp => exact begin_turn hhas hs hb hss hsp hact
  | working fn tr c b p hb hp =>
    rcases p with (err | value) | ⟨st, next⟩
    · exact failing_turn hhas hs (.inl rfl : Settled (.tx fn) tr [] (.error err)) hact
    · refine commit_turn hhas hs hb (fun hfn => ?_) hact
      cases hsp : spoiled tr with
      | false => rfl
      | true =>
        obtain ⟨err, herr⟩ := (hp hfn).2 hsp
        cases herr
    · refine exec_turn hhas hs hb (fun hfn => ⟨(hp hfn).1, ?_⟩) hact
      cases hsp : spoiled tr with
      | false => rfl
      | true =>
        obtain ⟨err, herr⟩ := (hp hfn).2 hsp
        cases herr
  | failing fn tr c b err mine h => exact failing_turn hhas hs h hact
  | leaving fn tr c b r mine hb h => exact release_turn hhas hs hb h hact
  | done job tr r mine h => cases hact

/-! ## Whole runs -/

/-- Every caller stands somewhere in its program, and no free connection is in a transaction. -/
theorem stands_run (jobs : ι → DbJob S Rows E α) (ms : List (ι × Turn (Luck Rows E) ℕ)) :
    (run jobs ms).Holds Tidy fun i l s => Stands i (jobs i) l s := by
  refine runSteps_keeps (I := fun w : World ι S Rows E α =>
    w.Holds Tidy fun i l s => Stands i (jobs i) l s) (fun w m hw => ?_) ?_ ms
  · have hmoved : ∀ l s, Session.act Server.serve Server.disconnect m.2 (w.locals m.1) w.shared =
        some (l, s) → Moved m.1 (jobs m.1) l w.shared s := by
      intro l s hact
      rcases hm : m.2 with k | c
      · rw [hm] at hact
        obtain ⟨held, mine, hat, hhas⟩ := hw.2 m.1
        exact hat.turn hhas hw.1 hact
      · rw [hm] at hact
        obtain ⟨rfl, rfl⟩ := Prod.mk.inj (Option.some.inj hact)
        exact ⟨(hw.2 m.1).untouched (disconnect_untouched _ c _), disconnect_tidy hw.1 c,
          fun j _ => disconnect_untouched _ c j⟩
    refine hw.step (fun l s hact => ?_) fun l s hact j hj => ?_
    · exact ⟨(hmoved l s hact).tidy, (hmoved l s hact).own⟩
    · exact (hw.2 j).untouched ((hmoved l s hact).others j hj)
  · refine ⟨fun c _ => .inl rfl, fun i => ⟨none, [], .fresh _, fun c => ?_, ?_, rfl⟩⟩
    · simp [Session.start]
    · rintro x ⟨⟩

/-- At any time a caller's transactions are none or the whole of its statements, once. One that was
told of success has committed them all, unless its callback caught the error of a statement; one
that was told of an error has committed nothing, unless the answer to its COMMIT got lost. A caller
that has its answer has no connection, and free connections are in no transaction. -/
theorem all_or_nothing (jobs : ι → DbJob S Rows E α) (ms : List (ι × Turn (Luck Rows E) ℕ))
    (i : ι) :
    let w := run jobs ms
    let tr := (w.locals i).trace
    let mine := w.shared.entries i
    (mine = [] ∨ mine = [statements tr]) ∧
    (∀ value, (w.locals i).rest = .ret (.ok value) →
      mine = (if spoiled tr then [] else [statements tr]) ∧
      ((jobs i).Propagates → mine = [statements tr])) ∧
    (∀ err, (w.locals i).rest = .ret (.error err) →
      mine = [] ∨ unconfirmed tr = true ∧ mine = [statements tr]) ∧
    (∀ r, (w.locals i).rest = .ret r → ∀ c, w.shared.holder c ≠ some i) ∧
    ∀ c, w.shared.holder c = none → (w.shared.blocks c).Clean := by
  intro w tr mine
  obtain ⟨htidy, hstands⟩ := stands_run jobs ms
  obtain ⟨held, mine', hat, hhas⟩ := hstands i
  obtain rfl : mine = mine' := hhas.entries
  refine ⟨hat.whole, fun value hr => ?_, fun err hr => (hat.ended hr).2, fun r hr c hc => ?_, htidy⟩
  · obtain ⟨-, hpropagates, hmine⟩ := hat.ended hr
    refine ⟨hmine, fun hfn => ?_⟩
    rw [hmine, hpropagates hfn]
    rfl
  · obtain ⟨rfl, -⟩ := hat.ended hr
    cases (hhas.only c).mp hc

/-! Neither of the two repositories catches the error of a statement. -/

theorem insertChallengeTx_propagates (lock insert : S) (rowCount : Rows → ℕ) :
    TxCallback.Propagates (insertChallengeTx lock insert rowCount : TxCallback S Rows E Bool) :=
  ⟨fun err => ⟨err, rfl⟩, fun _ => ⟨fun err => ⟨err, rfl⟩, fun _ => trivial⟩⟩

theorem recordAllowTx_propagates (activity select : S) (upsert : Rows → S) :
    TxCallback.Propagates (recordAllowTx activity select upsert : TxCallback S Rows E Unit) :=
  ⟨fun err => ⟨err, rfl⟩, fun _ => ⟨fun err => ⟨err, rfl⟩, fun _ =>
    ⟨fun err => ⟨err, rfl⟩, fun _ => trivial⟩⟩⟩

end DbService

end ZTG
