import StepChain.Proofs.Reading.Recorded

/-!
# Reading lists

The descriptions of a list are read in turn, each in the context that the calls for those
before it left. A lazy step is kept, an eager one is called once and replaced by what its
value expands to. The first failure is that of the list, and nothing after it is read or
called.
-/

namespace StepChain

variable {σ α μ : Type}

/-! ## Calls one after the other -/

/-- The context that calls of some steps leave. -/
def callAll (steps : List (Step σ α μ)) (ctx : σ) : σ :=
  steps.foldl (fun ctx step => (step.call ctx).2) ctx

/-- The events of calls of some steps. -/
def eventsOfAll : List (Step σ α μ) → σ → List (Event σ α)
  | [], _ => []
  | step :: rest, ctx => step.callEvents ctx ++ eventsOfAll rest (step.call ctx).2

theorem callAll_append (front back : List (Step σ α μ)) (ctx : σ) :
    callAll (front ++ back) ctx = callAll back (callAll front ctx) :=
  List.foldl_append

theorem callAll_recorded (steps : List (Step σ α μ)) (ctx : σ) (log : List (Event σ α)) :
    callAll (steps.map Step.recorded) (ctx, log) =
      (callAll steps ctx, log ++ eventsOfAll steps ctx) := by
  induction steps generalizing ctx log with
  | nil => simp [callAll, eventsOfAll]
  | cons step rest ih =>
      have hstep : callAll ((step :: rest).map Step.recorded) (ctx, log) =
          callAll (rest.map Step.recorded) (step.recorded.call (ctx, log)).2 := rfl
      rw [hstep, Step.recorded_call, ih, List.append_assoc]
      rfl

/-! ## Addresses of steps -/

namespace Vocabulary

variable {vocabulary : Vocabulary μ} {resolver : Resolver σ α} {policy : CyclePolicy}
  {addr : Address} {step : Step σ α μ}

theorem address_of_assemble {action : Action σ α} {modifiers : NameMap (Modifier σ α)}
    {metadata : YamlMapping}
    (hok : vocabulary.assemble policy addr action modifiers metadata = .ok step) :
    step.address = addr := by
  obtain ⟨-, -, accepted, -, rfl⟩ := assemble_eq_ok_iff.mp hok
  rfl

theorem address_of_readStep {raw : Yaml}
    (hread : vocabulary.readStep resolver policy raw addr = .ok step) : step.address = addr := by
  cases raw with
  | str name =>
      simp only [readStep] at hread
      cases haction : resolver.action vocabulary.actionSpace name with
      | error missing => simp [haction] at hread
      | ok factory =>
          cases hmade : factory name .null (addr.key name) with
          | error error => simp [haction, hmade, bind, Except.bind] at hread
          | ok action =>
              simp only [haction, hmade, bind, Except.bind] at hread
              exact address_of_assemble hread
  | map entries =>
      simp only [readStep] at hread
      cases hparts : vocabulary.parts resolver addr entries with
      | error error => simp [hparts, bind, Except.bind] at hread
      | ok parts =>
          cases haction : parts.action with
          | none => simp [hparts, haction, bind, Except.bind] at hread
          | some action =>
              simp only [hparts, haction, bind, Except.bind] at hread
              exact address_of_assemble hread
  | _ => cases hread

end Vocabulary

/-! ## One description -/

/-- What one description adds to the steps of a list. -/
structure Share (σ α μ : Type) where
  steps : List (Step σ α μ)
  /-- The eager step that is called for them. -/
  called : Option (Step σ α μ)

def Share.recorded (share : Share σ α μ) : Share (Recorded σ α) α μ :=
  { steps := share.steps.map Step.recorded
    called := share.called.map Step.recorded }

namespace StepReader

/-- A description adds its own step or what this expands to. -/
inductive Contributes (reader : StepReader σ α μ) (raw : Yaml) (addr : Address) (ctx : σ) :
    Share σ α μ → Prop where
  | kept {step : Step σ α μ} (hread : reader.readStep raw addr = .ok step)
      (hlazy : step.eager = false) :
      Contributes reader raw addr ctx { steps := [step], called := none }
  | expanded {step : Step σ α μ} {value : α} {steps : List (Step σ α μ)} {left : σ}
      (hread : reader.readStep raw addr = .ok step) (heager : step.eager = true)
      (hcall : step.call ctx = (.ok (some value), left))
      (hexpand : reader.dialect.expand value addr = .ok steps) :
      Contributes reader raw addr ctx { steps, called := some step }
  | skipped {step : Step σ α μ} {left : σ} (hread : reader.readStep raw addr = .ok step)
      (heager : step.eager = true) (hcall : step.call ctx = (.ok none, left)) :
      Contributes reader raw addr ctx { steps := [], called := some step }

/-- A description fails to be read, called or expanded. The step is the one that was
called. -/
inductive Fails (reader : StepReader σ α μ) (raw : Yaml) (addr : Address) (ctx : σ) :
    Failure → Option (Step σ α μ) → Prop where
  | unreadable {error : StepError} (hread : reader.readStep raw addr = .error error) :
      Fails reader raw addr ctx { context := [], root := .step error } none
  | call {step : Step σ α μ} {failure : Failure} {left : σ}
      (hread : reader.readStep raw addr = .ok step) (heager : step.eager = true)
      (hcall : step.call ctx = (.error failure, left)) :
      Fails reader raw addr ctx failure (some step)
  | expansion {step : Step σ α μ} {value : α} {failure : Failure} {left : σ}
      (hread : reader.readStep raw addr = .ok step) (heager : step.eager = true)
      (hcall : step.call ctx = (.ok (some value), left))
      (hexpand : reader.dialect.expand value addr = .error failure) :
      Fails reader raw addr ctx failure (some step)

section

variable {reader : StepReader σ α μ} {raw : Yaml} {addr : Address} {ctx : σ}

theorem Contributes.readItem_eq {share : Share σ α μ}
    (hshare : reader.Contributes raw addr ctx share) :
    reader.readItem raw addr ctx = (.ok share.steps, callAll share.called.toList ctx) := by
  cases hshare with
  | kept hread hlazy => simp [readItem, hread, hlazy, callAll]
  | expanded hread heager hcall hexpand =>
      have haddress := Vocabulary.address_of_readStep hread
      simp [readItem, hread, heager, hcall, haddress, hexpand, callAll]
  | skipped hread heager hcall => simp [readItem, hread, heager, hcall, callAll]

theorem Fails.readItem_eq {failure : Failure} {called : Option (Step σ α μ)}
    (hfails : reader.Fails raw addr ctx failure called) :
    reader.readItem raw addr ctx = (.error failure, callAll called.toList ctx) := by
  cases hfails with
  | unreadable hread =>
      simp [readItem, hread, callAll, Failure.ofStepError, Failure.ofRoot]
  | call hread heager hcall => simp [readItem, hread, heager, hcall, callAll]
  | expansion hread heager hcall hexpand =>
      have haddress := Vocabulary.address_of_readStep hread
      simp [readItem, hread, heager, hcall, haddress, hexpand, callAll]

theorem contributes_or_fails (reader : StepReader σ α μ) (raw : Yaml) (addr : Address) (ctx : σ) :
    (∃ share, reader.Contributes raw addr ctx share) ∨
      ∃ failure called, reader.Fails raw addr ctx failure called := by
  cases hread : reader.readStep raw addr with
  | error error => exact .inr ⟨_, none, .unreadable hread⟩
  | ok step =>
      by_cases heager : step.eager = true
      · cases hcall : step.call ctx with
        | mk answer left =>
            cases answer with
            | error failure => exact .inr ⟨failure, some step, .call hread heager hcall⟩
            | ok value =>
                cases value with
                | none => exact .inl ⟨_, .skipped hread heager hcall⟩
                | some value =>
                    cases hexpand : reader.dialect.expand value addr with
                    | error failure =>
                        exact .inr ⟨failure, some step, .expansion hread heager hcall hexpand⟩
                    | ok steps => exact .inl ⟨_, .expanded hread heager hcall hexpand⟩
      · exact .inl ⟨_, .kept hread (by simpa using heager)⟩

end

/-! ## Descriptions in turn -/

/-- The descriptions from a position of a list on contribute in turn, as far as there are
shares: each in the context that the calls for those before it leave. -/
def InTurn (reader : StepReader σ α μ) (addr : Address) (start : Nat) (items : List Yaml)
    (ctx : σ) (shares : List (Share σ α μ)) : Prop :=
  ∀ position item share, items[position]? = some item → shares[position]? = some share →
    reader.Contributes item (addr.idx (start + position))
      (callAll ((shares.take position).filterMap Share.called) ctx) share

/-- What descriptions from a position of a list on are read as, and which steps are
called for them. -/
inductive ReadAs (reader : StepReader σ α μ) (addr : Address) (start : Nat) (items : List Yaml)
    (ctx : σ) : Except Failure (List (Step σ α μ)) → List (Step σ α μ) → Prop where
  | all {shares : List (Share σ α μ)} (hlength : shares.length = items.length)
      (hturn : reader.InTurn addr start items ctx shares) :
      ReadAs reader addr start items ctx (.ok (shares.flatMap Share.steps))
        (shares.filterMap Share.called)
  | stopped {shares : List (Share σ α μ)} {item : Yaml} {failure : Failure}
      {called : Option (Step σ α μ)} (hturn : reader.InTurn addr start items ctx shares)
      (hitem : items[shares.length]? = some item)
      (hfails : reader.Fails item (addr.idx (start + shares.length))
        (callAll (shares.filterMap Share.called) ctx) failure called) :
      ReadAs reader addr start items ctx (.error failure)
        (shares.filterMap Share.called ++ called.toList)

section

variable {reader : StepReader σ α μ} {addr : Address} {start : Nat} {item : Yaml}
  {items : List Yaml} {ctx : σ} {share : Share σ α μ} {shares : List (Share σ α μ)}
  {result : Except Failure (List (Step σ α μ))} {called : List (Step σ α μ)}

theorem filterMap_called_cons (share : Share σ α μ) (shares : List (Share σ α μ)) :
    (share :: shares).filterMap Share.called =
      share.called.toList ++ shares.filterMap Share.called := by
  cases hcalled : share.called <;> simp [hcalled]

theorem inTurn_cons_iff :
    reader.InTurn addr start (item :: items) ctx (share :: shares) ↔
      reader.Contributes item (addr.idx start) ctx share ∧
        reader.InTurn addr (start + 1) items (callAll share.called.toList ctx) shares := by
  have hshift : ∀ position, start + (position + 1) = start + 1 + position := by omega
  have hcalls : ∀ position,
      callAll (((share :: shares).take (position + 1)).filterMap Share.called) ctx =
        callAll ((shares.take position).filterMap Share.called)
          (callAll share.called.toList ctx) := by
    intro position
    rw [List.take_succ_cons, filterMap_called_cons, callAll_append]
  constructor
  · intro hturn
    refine ⟨hturn 0 item share rfl rfl, ?_⟩
    intro position other added hother hadded
    have hlater := hturn (position + 1) other added (by simpa using hother) (by simpa using hadded)
    rwa [hshift, hcalls] at hlater
  · rintro ⟨hfirst, hrest⟩ position other added hother hadded
    cases position with
    | zero =>
        obtain rfl : item = other := by simpa using hother
        obtain rfl : share = added := by simpa using hadded
        exact hfirst
    | succ position =>
        rw [hshift, hcalls]
        exact hrest position other added (by simpa using hother) (by simpa using hadded)

theorem fails_after_cons_iff {failure : Failure} {last : Option (Step σ α μ)} :
    reader.Fails item (addr.idx (start + (share :: shares).length))
        (callAll ((share :: shares).filterMap Share.called) ctx) failure last ↔
      reader.Fails item (addr.idx (start + 1 + shares.length))
        (callAll (shares.filterMap Share.called) (callAll share.called.toList ctx)) failure
          last := by
  have hposition : start + (share :: shares).length = start + 1 + shares.length := by
    rw [List.length_cons]
    omega
  rw [hposition, filterMap_called_cons, callAll_append]

theorem inTurn_nil : reader.InTurn addr start items ctx [] := by
  intro position item share _ hshare
  simp at hshare

theorem ReadAs.nil (reader : StepReader σ α μ) (addr : Address) (start : Nat) (ctx : σ) :
    reader.ReadAs addr start [] ctx (.ok []) [] := by
  have hturn : reader.InTurn addr start [] ctx [] := inTurn_nil
  exact .all rfl hturn

theorem ReadAs.stop {failure : Failure} {called : Option (Step σ α μ)}
    (hfails : reader.Fails item (addr.idx start) ctx failure called) :
    reader.ReadAs addr start (item :: items) ctx (.error failure) called.toList := by
  have hturn : reader.InTurn addr start (item :: items) ctx [] := inTurn_nil
  exact .stopped hturn rfl hfails

theorem ReadAs.cons (hfirst : reader.Contributes item (addr.idx start) ctx share)
    (hread : reader.ReadAs addr (start + 1) items (callAll share.called.toList ctx) result
      called) :
    reader.ReadAs addr start (item :: items) ctx (result.map (share.steps ++ ·))
      (share.called.toList ++ called) := by
  cases hread with
  | @all shares hlength hturn =>
      have hall : reader.InTurn addr start (item :: items) ctx (share :: shares) :=
        inTurn_cons_iff.mpr ⟨hfirst, hturn⟩
      have hread := ReadAs.all (by simpa using hlength) hall
      rwa [filterMap_called_cons, List.flatMap_cons] at hread
  | @stopped shares last failure called hturn hitem hfails =>
      have hall : reader.InTurn addr start (item :: items) ctx (share :: shares) :=
        inTurn_cons_iff.mpr ⟨hfirst, hturn⟩
      have hread := ReadAs.stopped hall (by simpa using hitem) (fails_after_cons_iff.mpr hfails)
      rwa [filterMap_called_cons, List.append_assoc] at hread

theorem exists_readAs (reader : StepReader σ α μ) (addr : Address) (start : Nat)
    (items : List Yaml) (ctx : σ) :
    ∃ result called, reader.ReadAs addr start items ctx result called := by
  induction items generalizing start ctx with
  | nil => exact ⟨.ok [], [], .nil reader addr start ctx⟩
  | cons item rest ih =>
      rcases reader.contributes_or_fails item (addr.idx start) ctx with
        ⟨share, hshare⟩ | ⟨failure, called, hfails⟩
      · obtain ⟨result, called, hread⟩ := ih (start + 1) (callAll share.called.toList ctx)
        exact ⟨_, _, .cons hshare hread⟩
      · exact ⟨_, _, .stop hfails⟩

theorem readItems_of_all (hlength : shares.length = items.length)
    (hturn : reader.InTurn addr start items ctx shares) :
    reader.readItems addr start items ctx =
      (.ok (shares.flatMap Share.steps), callAll (shares.filterMap Share.called) ctx) := by
  induction items generalizing start ctx shares with
  | nil =>
      obtain rfl : shares = [] := List.length_eq_zero_iff.mp hlength
      rfl
  | cons item rest ih =>
      cases shares with
      | nil => cases hlength
      | cons share shares =>
          obtain ⟨hfirst, hrest⟩ := inTurn_cons_iff.mp hturn
          have hlater := ih (by simpa using hlength) hrest
          simp only [readItems, hfirst.readItem_eq, hlater]
          rw [filterMap_called_cons, callAll_append, List.flatMap_cons]

theorem readItems_of_stopped {failure : Failure} {called : Option (Step σ α μ)}
    (hturn : reader.InTurn addr start items ctx shares)
    (hitem : items[shares.length]? = some item)
    (hfails : reader.Fails item (addr.idx (start + shares.length))
      (callAll (shares.filterMap Share.called) ctx) failure called) :
    reader.readItems addr start items ctx =
      (.error failure, callAll (shares.filterMap Share.called ++ called.toList) ctx) := by
  induction shares generalizing start ctx items with
  | nil =>
      obtain ⟨rest, rfl⟩ : ∃ rest, items = item :: rest := by
        cases items with
        | nil => cases hitem
        | cons first rest => exact ⟨rest, by simpa using hitem⟩
      have hfirst : reader.Fails item (addr.idx start) ctx failure called := hfails
      simp only [readItems, hfirst.readItem_eq]
      rfl
  | cons share shares ih =>
      cases items with
      | nil => cases hitem
      | cons first rest =>
          obtain ⟨hfirst, hrest⟩ := inTurn_cons_iff.mp hturn
          have hlater := ih hrest (by simpa using hitem) (fails_after_cons_iff.mp hfails)
          simp only [readItems, hfirst.readItem_eq, hlater]
          rw [filterMap_called_cons, List.append_assoc, callAll_append share.called.toList]

theorem ReadAs.readItems_eq (hread : reader.ReadAs addr start items ctx result called) :
    reader.readItems addr start items ctx = (result, callAll called ctx) := by
  cases hread with
  | all hlength hturn => exact readItems_of_all hlength hturn
  | stopped hturn hitem hfails => exact readItems_of_stopped hturn hitem hfails

end

/-! ## Recorded readings -/

theorem filterMap_called_recorded (shares : List (Share σ α μ)) :
    (shares.map Share.recorded).filterMap Share.called =
      (shares.filterMap Share.called).map Step.recorded := by
  rw [List.filterMap_map, List.map_filterMap]
  rfl

theorem flatMap_steps_recorded (shares : List (Share σ α μ)) :
    (shares.map Share.recorded).flatMap Share.steps =
      (shares.flatMap Share.steps).map Step.recorded := by
  rw [List.flatMap_map, List.map_flatMap]
  rfl

section

variable {reader : StepReader σ α μ} {raw : Yaml} {addr : Address} {ctx : σ}

theorem Contributes.recorded {share : Share σ α μ}
    (hshare : reader.Contributes raw addr ctx share) (log : List (Event σ α)) :
    reader.recorded.Contributes raw addr (ctx, log) share.recorded := by
  cases hshare with
  | kept hread hlazy => exact .kept (reader.recorded_readStep_of_ok hread) hlazy
  | expanded hread heager hcall hexpand =>
      have hagain := Step.recorded_call_of_call hcall log
      refine .expanded (reader.recorded_readStep_of_ok hread) heager hagain ?_
      rw [recorded_expand, hexpand]
      rfl
  | skipped hread heager hcall =>
      have hagain := Step.recorded_call_of_call hcall log
      exact .skipped (reader.recorded_readStep_of_ok hread) heager hagain

theorem Fails.recorded {failure : Failure} {called : Option (Step σ α μ)}
    (hfails : reader.Fails raw addr ctx failure called) (log : List (Event σ α)) :
    reader.recorded.Fails raw addr (ctx, log) failure (called.map Step.recorded) := by
  cases hfails with
  | unreadable hread =>
      refine .unreadable ?_
      rw [recorded_readStep, hread]
      rfl
  | call hread heager hcall =>
      have hagain := Step.recorded_call_of_call hcall log
      exact .call (reader.recorded_readStep_of_ok hread) heager hagain
  | expansion hread heager hcall hexpand =>
      have hagain := Step.recorded_call_of_call hcall log
      refine .expansion (reader.recorded_readStep_of_ok hread) heager hagain ?_
      rw [recorded_expand, hexpand]
      rfl

theorem InTurn.recorded {start : Nat} {items : List Yaml} {shares : List (Share σ α μ)}
    (hturn : reader.InTurn addr start items ctx shares) (log : List (Event σ α)) :
    reader.recorded.InTurn addr start items (ctx, log) (shares.map Share.recorded) := by
  intro position item share hitem hshare
  rw [List.getElem?_map] at hshare
  obtain ⟨plain, hplain, rfl⟩ := Option.map_eq_some_iff.mp hshare
  rw [← List.map_take, filterMap_called_recorded, callAll_recorded]
  exact (hturn position item plain hitem hplain).recorded _

theorem ReadAs.recorded {start : Nat} {items : List Yaml}
    {result : Except Failure (List (Step σ α μ))} {called : List (Step σ α μ)}
    (hread : reader.ReadAs addr start items ctx result called) (log : List (Event σ α)) :
    reader.recorded.ReadAs addr start items (ctx, log) (result.map (List.map Step.recorded))
      (called.map Step.recorded) := by
  cases hread with
  | @all shares hlength hturn =>
      have hall := ReadAs.all (by simpa using hlength) (hturn.recorded log)
      rwa [flatMap_steps_recorded, filterMap_called_recorded] at hall
  | @stopped shares item failure called hturn hitem hfails =>
      have hlast : reader.recorded.Fails item
          (addr.idx (start + (shares.map Share.recorded).length))
          (callAll ((shares.map Share.recorded).filterMap Share.called) (ctx, log)) failure
          (called.map Step.recorded) := by
        rw [List.length_map, filterMap_called_recorded, callAll_recorded]
        exact hfails.recorded _
      have hstopped := ReadAs.stopped (hturn.recorded log) (by simpa using hitem) hlast
      rw [filterMap_called_recorded] at hstopped
      rw [List.map_append]
      cases called <;> exact hstopped

end

/-! ## Lists -/

/-- What a list of descriptions is read as, and which steps are called for it. -/
inductive ListReadAs (reader : StepReader σ α μ) (raw : Yaml) (addr : Address) (ctx : σ) :
    Except Failure (List (Step σ α μ)) → List (Step σ α μ) → Prop where
  | listed {items : List Yaml} {result : Except Failure (List (Step σ α μ))}
      {called : List (Step σ α μ)} (hitems : raw.items? = some items)
      (hread : reader.ReadAs addr 0 items ctx result called) :
      ListReadAs reader raw addr ctx result called
  | malformed (hitems : raw.items? = none) :
      ListReadAs reader raw addr ctx
        (.error
          { context := []
            root := .step
              { code := 1001
                message := "Step list must be a sequence, found " ++ raw.describe
                address := some addr
                causes := [] } }) []

section

variable {reader : StepReader σ α μ} {raw : Yaml} {addr : Address} {ctx : σ}
  {result : Except Failure (List (Step σ α μ))} {called : List (Step σ α μ)}

theorem ListReadAs.readList_eq (hread : reader.ListReadAs raw addr ctx result called) :
    reader.readList raw addr ctx = (result, callAll called ctx) := by
  unfold readList
  cases hread with
  | listed hitems hread => simp only [hitems, hread.readItems_eq]
  | malformed hitems =>
      simp only [hitems]
      rfl

theorem ListReadAs.recorded (hread : reader.ListReadAs raw addr ctx result called)
    (log : List (Event σ α)) :
    reader.recorded.ListReadAs raw addr (ctx, log) (result.map (List.map Step.recorded))
      (called.map Step.recorded) := by
  cases hread with
  | listed hitems hread => exact .listed hitems (hread.recorded log)
  | malformed hitems => exact .malformed hitems

theorem exists_listReadAs (reader : StepReader σ α μ) (raw : Yaml) (addr : Address) (ctx : σ) :
    ∃ result called, reader.ListReadAs raw addr ctx result called := by
  cases hitems : raw.items? with
  | none => exact ⟨_, _, .malformed hitems⟩
  | some items =>
      obtain ⟨result, called, hread⟩ := reader.exists_readAs addr 0 items ctx
      exact ⟨result, called, .listed hitems hread⟩

end

/-- A list is read in turn, and what is called for it is called once, in turn, and is all
that is called. -/
theorem readList_inTurn (reader : StepReader σ α μ) (raw : Yaml) (addr : Address) (ctx : σ)
    (log : List (Event σ α)) :
    ∃ result called, reader.ListReadAs raw addr ctx result called ∧
      reader.readList raw addr ctx = (result, callAll called ctx) ∧
      reader.recorded.readList raw addr (ctx, log) =
        (result.map (List.map Step.recorded),
          (callAll called ctx, log ++ eventsOfAll called ctx)) := by
  obtain ⟨result, called, hread⟩ := reader.exists_listReadAs raw addr ctx
  refine ⟨result, called, hread, hread.readList_eq, ?_⟩
  rw [(hread.recorded log).readList_eq, callAll_recorded]

end StepReader

end StepChain
