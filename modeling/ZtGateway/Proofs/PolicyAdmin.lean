import ZtGateway.Spec.PolicyAdmin

/-! Policy administration as an atomic, durable rule set. A call changes the memory first and saves
it second; nothing takes the change back when the save fails. -/

namespace ZTG

namespace PolicyEvaluatorService

/-- memory and file agree -/
def Rules.Durable (s : Rules) : Prop := s.memory = s.persisted

/-- A call did all it is for, or nothing, and what it did is saved. -/
structure Atomic (c : RuleCall) (before : Rules) (result : Except Err Bool) (after : Rules) :
    Prop where
  effect : (result = .ok true ∧ after.memory = c.apply before.memory) ∨
    result ≠ .ok true ∧ after.memory = before.memory
  durable : after.Durable

theorem changeRule_ensures {c : RuleCall} {op : EnforcerCall}
    (hrun : c.run = (changeRule op ()).bind fun r => .ret r.1)
    (hdone : ∀ s, ∃ changed, perform op .done s =
        (.ok changed, { s with memory := c.apply s.memory }) ∧
      (changed = false → c.apply s.memory = s.memory))
    (s : Rules) (hs : s.Durable) :
    c.run.Ensures perform (fun op c _ => op = .savePolicy → c = .done)
      (fun r s' => Atomic c s r s' ∧ s'.Durable) s := by
  rw [hrun]
  intro outcome _
  cases outcome with
  | refused => exact ⟨⟨.inr ⟨by simp, rfl⟩, hs⟩, hs⟩
  | threw e => exact ⟨⟨.inr ⟨by simp, rfl⟩, hs⟩, hs⟩
  | done =>
    obtain ⟨changed, hperform, hsame⟩ := hdone s
    rw [hperform]
    cases changed with
    | false =>
      have hnoop : { s with memory := c.apply s.memory } = s := by rw [hsame rfl]
      rw [hnoop]
      exact ⟨⟨.inr ⟨by simp, rfl⟩, hs⟩, hs⟩
    | true =>
      intro outcome hsaved
      rw [hsaved rfl]
      exact ⟨⟨.inl ⟨rfl, rfl⟩, rfl⟩, rfl⟩

theorem RuleCall.ensures (c : RuleCall) (s : Rules) (hs : s.Durable) :
    c.run.Ensures perform (fun op c _ => op = .savePolicy → c = .done)
      (fun r s' => Atomic c s r s' ∧ s'.Durable) s := by
  cases c with
  | add sub obj act =>
    refine changeRule_ensures rfl (fun s => ⟨_, rfl, fun h => ?_⟩) s hs
    exact Finset.insert_eq_of_mem (by simpa using h)
  | remove sub obj act =>
    refine changeRule_ensures rfl (fun s => ⟨_, rfl, fun h => ?_⟩) s hs
    exact Finset.erase_eq_of_notMem (by simpa using h)

variable {ι : Type}

/-- A chain of atomic calls is those that changed something, one after another. -/
theorem chain_apply {calls : ι → RuleCall} {log : List (Mutex.Done ι Rules (Except Err Bool))}
    {first last : Rules} (hchain : Mutex.Chain first log last)
    (hatomic : ∀ d ∈ log, Atomic (calls d.id) d.before d.result d.after) :
    last.memory = ((log.filter fun d => d.result = .ok true).map (·.id)).foldl
      (fun rules i => (calls i).apply rules) first.memory := by
  induction log generalizing first with
  | nil => rw [show last = first from hchain]; rfl
  | cons d log ih =>
    obtain ⟨hbefore, hrest⟩ := hchain
    have hlast := ih hrest fun d' hd' => hatomic d' (List.mem_cons_of_mem d hd')
    rcases (hatomic d List.mem_cons_self).effect with ⟨hok, hafter⟩ | ⟨hno, hafter⟩
    · rw [List.filter_cons_of_pos (by simpa using hok), hlast, hafter, hbefore]
      rfl
    · rw [List.filter_cons_of_neg (by simpa using hno), hlast, hafter, hbefore]

variable [DecidableEq ι]

theorem admin_holds (calls : ι → RuleCall) (rules : Finset Rule) {steps : List (ι × Outcome)}
    (hsaves : Along (Admin.step calls) Admin.Saves (.init rules) steps) :
    (runSteps (Admin.step calls) (.init rules) steps).Holds
      (Mutex.Serial (fun i => Atomic (calls i)) Rules.Durable ⟨rules, rules⟩)
      (Mutex.Knows perform (fun op c _ => op = .savePolicy → c = .done)
        (fun i => Atomic (calls i)) Rules.Durable ⟨rules, rules⟩) := by
  refine Mutex.run_holds (fun i => (calls i).ensures) ?_ hsaves
  exact rfl

/-- In every interleaving of any number of calls in which `savePolicy` does not fail: a call that
threw left the rules as they were before it, a call that returned left memory and file equal, and
whenever no call is under way both are what the calls that returned `true` make of the initial
rules, one after another. -/
theorem admin_atomic (calls : ι → RuleCall) (rules : Finset Rule) (steps : List (ι × Outcome))
    (hsaves : Along (Admin.step calls) Admin.Saves (.init rules) steps) :
    let w := runSteps (Admin.step calls) (.init rules) steps
    (∀ d ∈ w.shared.log,
      (∀ e, d.result = .error e → d.after.memory = d.before.memory) ∧
      ∀ changed, d.result = .ok changed → d.after.memory = d.after.persisted) ∧
    (w.shared.holder = none → ∃ order : List ι, order.Nodup ∧
      (∀ i, i ∈ order ↔ w.locals i = .finished (.ok true)) ∧
      w.shared.object.memory = order.foldl (fun rules i => (calls i).apply rules) rules ∧
      w.shared.object.persisted = w.shared.object.memory) := by
  intro w
  have hw := admin_holds calls rules hsaves
  obtain ⟨hserial, -⟩ := id hw
  refine ⟨fun d hd => ⟨fun e he => ?_, fun _ _ => (hserial.calls d hd).durable⟩, fun hfree => ?_⟩
  · rcases (hserial.calls d hd).effect with ⟨hok, -⟩ | ⟨-, hsame⟩
    · rw [he] at hok
      cases hok
    · exact hsame
  · obtain ⟨hchain, hdurable⟩ := hserial.free hfree
    refine ⟨(w.shared.log.filter fun d => d.result = .ok true).map (·.id), ?_, fun i => ?_,
      chain_apply hchain hserial.calls, hdurable.symm⟩
    · exact hserial.once.sublist (List.filter_sublist.map _)
    · rw [Mutex.finished_iff hw]
      simp only [List.mem_map, List.mem_filter, decide_eq_true_eq]
      constructor
      · rintro ⟨d, ⟨hd, hok⟩, hid⟩
        exact ⟨d, hd, hid, hok⟩
      · rintro ⟨d, hd, hid, hok⟩
        exact ⟨d, ⟨hd, hok⟩, hid⟩

theorem saves_of_done {calls : ι → RuleCall} {steps : List (ι × Outcome)}
    (h : ∀ m ∈ steps, m.2 = .done) (w : Admin ι) :
    Along (Admin.step calls) Admin.Saves w steps := by
  induction steps generalizing w with
  | nil => trivial
  | cons m steps ih =>
    exact ⟨fun _ _ _ _ _ => h m List.mem_cons_self,
      ih (fun m' hm' => h m' (List.mem_cons_of_mem m hm')) _⟩

/-- A rule is added and removed again, by two calls at once; the second waits for the first. -/
def addThenRemove : Bool → RuleCall
  | false => .add "role:x" "/x" "GET"
  | true => .remove "role:x" "/x" "GET"

theorem admin_atomic_twice :
    let w := runSteps (Admin.step addThenRemove) (.init ∅)
      [(false, .done), (true, .done), (false, .done), (true, .done), (false, .done), (false, .done),
        (true, .done), (true, .done), (true, .done), (true, .done)]
    w.shared.log.length = 2 ∧ w.shared.object.persisted = w.shared.object.memory := by
  intro w
  have hatomic := admin_atomic addThenRemove ∅
    [(false, .done), (true, .done), (false, .done), (true, .done), (false, .done), (false, .done),
      (true, .done), (true, .done), (true, .done), (true, .done)] (saves_of_done (by simp) _)
  obtain ⟨order, -, -, -, hsaved⟩ := hatomic.2 rfl
  exact ⟨rfl, hsaved⟩

/-- The file is not written once: that call throws and its rule stays in memory; the same call
again finds the rule there and returns, with the file still without it. -/
theorem admin_unsaved :
    let w := runSteps (Admin.step fun _ : Bool => .add "role:x" "/x" "GET") (.init ∅)
      [(false, .done), (false, .done), (false, .refused), (false, .done), (true, .done),
        (true, .done), (true, .done)]
    (∃ d ∈ w.shared.log, d.result = .error notSaved ∧ d.after.memory ≠ d.before.memory) ∧
      ∃ d ∈ w.shared.log, d.result = .ok false ∧ d.after.memory ≠ d.after.persisted := by
  intro w
  have hlog : w.shared.log = [⟨false, ⟨∅, ∅⟩, .error notSaved, ⟨{⟨"role:x", "/x", "GET"⟩}, ∅⟩⟩,
      ⟨true, ⟨{⟨"role:x", "/x", "GET"⟩}, ∅⟩, .ok false, ⟨{⟨"role:x", "/x", "GET"⟩}, ∅⟩⟩] := rfl
  rw [hlog]
  refine ⟨⟨_, List.mem_cons_self, rfl, by decide⟩, _, List.mem_cons_of_mem _ List.mem_cons_self,
    rfl, by decide⟩

end PolicyEvaluatorService

end ZTG
