import StepChain.Proofs.Addresses
import StepChain.Proofs.Reading.Builtins

/-!
# Where the steps of a list are

A step that is kept has the address of its description. Steps of an expansion have
addresses below that of the eager step. The positions ascend along the list that is read,
and no two of its steps have the same address.
-/

namespace StepChain

variable {σ α μ : Type}

/-! ## Places -/

/-- The step at a place of a list that was read: a description's own step at the position
of the description, or one of its expansion with a position of its own. -/
inductive StandsAt (shares : List (Share σ α μ)) : List Nat → Step σ α μ → Prop where
  | kept {position : Nat} {step : Step σ α μ}
      (hshare : shares[position]? = some { steps := [step], called := none }) :
      StandsAt shares [position] step
  | expanded {position inner : Nat} {eager step : Step σ α μ} {steps : List (Step σ α μ)}
      (hshare : shares[position]? = some { steps, called := some eager })
      (hstep : steps[inner]? = some step) :
      StandsAt shares [position, inner] step

/-- The places of the steps that a description stands for. -/
def Share.places (position : Nat) (share : Share σ α μ) : List (List Nat) :=
  match share.called with
  | none => [[position]]
  | some _ => (List.range share.steps.length).map fun inner => [position, inner]

/-- The places of the steps that the descriptions from a position on stand for. -/
def placesFrom : (start : Nat) → List (Share σ α μ) → List (List Nat)
  | _, [] => []
  | start, share :: rest => share.places start ++ placesFrom (start + 1) rest

theorem places_ascending (position : Nat) (share : Share σ α μ) :
    (share.places position).Pairwise (· < ·) := by
  unfold Share.places
  cases share.called with
  | none => exact List.pairwise_singleton ..
  | some _ =>
      refine List.pairwise_map.mpr (List.pairwise_lt_range.imp fun hlt => ?_)
      simpa [List.cons_lt_cons_iff] using hlt

theorem eq_cons_of_mem_places {position : Nat} {share : Share σ α μ} {place : List Nat}
    (hplace : place ∈ share.places position) : ∃ inner, place = position :: inner := by
  unfold Share.places at hplace
  cases hcalled : share.called with
  | none =>
      simp only [hcalled, List.mem_singleton] at hplace
      exact ⟨[], hplace⟩
  | some _ =>
      simp only [hcalled, List.mem_map] at hplace
      obtain ⟨inner, -, rfl⟩ := hplace
      exact ⟨[inner], rfl⟩

theorem start_le_of_mem_placesFrom {start : Nat} {shares : List (Share σ α μ)}
    {place : List Nat} (hplace : place ∈ placesFrom start shares) :
    ∃ position inner, place = position :: inner ∧ start ≤ position := by
  induction shares generalizing start with
  | nil => cases hplace
  | cons share rest ih =>
      rcases List.mem_append.mp hplace with hfirst | hlater
      · obtain ⟨inner, rfl⟩ := eq_cons_of_mem_places hfirst
        exact ⟨start, inner, rfl, Nat.le_refl start⟩
      · obtain ⟨position, inner, rfl, hle⟩ := ih hlater
        exact ⟨position, inner, rfl, by omega⟩

theorem placesFrom_ascending (start : Nat) (shares : List (Share σ α μ)) :
    (placesFrom start shares).Pairwise (· < ·) := by
  induction shares generalizing start with
  | nil => exact List.Pairwise.nil
  | cons share rest ih =>
      refine List.pairwise_append.mpr ⟨places_ascending start share, ih (start + 1), ?_⟩
      intro place hplace later hlater
      obtain ⟨inner, rfl⟩ := eq_cons_of_mem_places hplace
      obtain ⟨position, more, rfl, hle⟩ := start_le_of_mem_placesFrom hlater
      exact List.cons_lt_cons_iff.mpr (Or.inl (by omega))

/-- A description that calls nothing adds one step. -/
def Share.Single (share : Share σ α μ) : Prop :=
  share.called = none → ∃ step, share.steps = [step]

theorem standsAt_places {shares : List (Share σ α μ)} {position : Nat} {share : Share σ α μ}
    (hshare : shares[position]? = some share) (hsingle : share.Single) :
    List.Forall₂ (StandsAt shares) (share.places position) share.steps := by
  obtain ⟨steps, called⟩ := share
  cases called with
  | none =>
      obtain ⟨step, rfl⟩ := hsingle rfl
      exact .cons (.kept hshare) .nil
  | some eager =>
      have hpositions : List.Forall₂ (fun inner step => StandsAt shares [position, inner] step)
          (List.range steps.length) steps := by
        refine List.forall₂_iff_get.mpr ⟨List.length_range, fun inner hinner hstep => ?_⟩
        rw [List.get_eq_getElem, List.getElem_range]
        exact .expanded hshare (List.getElem?_eq_getElem hstep)
      exact List.forall₂_map_left_iff.mpr hpositions

theorem standsAt_placesFrom {front back : List (Share σ α μ)}
    (hsingle : ∀ share ∈ back, share.Single) :
    List.Forall₂ (StandsAt (front ++ back)) (placesFrom front.length back)
      (back.flatMap Share.steps) := by
  induction back generalizing front with
  | nil => exact .nil
  | cons share rest ih =>
      obtain ⟨hfirst, hlater⟩ := List.forall_mem_cons.mp hsingle
      have hrest := @ih (front ++ [share]) hlater
      rw [List.append_assoc, List.length_append] at hrest
      exact List.rel_append (standsAt_places (by simp) hfirst) hrest

/-! ## Addresses -/

/-- The steps of an expansion are at their positions in it. -/
def Dialect.Indexed (dialect : Dialect σ α μ) : Prop :=
  ∀ {value : α} {addr : Address} {steps : List (Step σ α μ)},
    dialect.expand value addr = .ok steps →
      ∀ {inner : Nat} {step : Step σ α μ}, steps[inner]? = some step →
        step.address = addr.idx inner

theorem extend_positions_inj {addr : Address} {left right : List Nat}
    (heq : addr.extend (left.map .index) = addr.extend (right.map .index)) : left = right := by
  have hreadable : ∀ positions : List Nat, ∀ segment ∈ positions.map Segment.index,
      segment.Readable := by
    intro positions segment hsegment
    obtain ⟨position, -, rfl⟩ := List.mem_map.mp hsegment
    trivial
  have hsegments := Address.extend_inj (hreadable left) (hreadable right) heq
  exact List.map_injective_iff.mpr (fun _ _ h => Segment.index.inj h) hsegments

/-- Ascending places make different addresses. -/
theorem nodup_of_ascending {addr : Address} {places : List (List Nat)}
    (hascending : places.Pairwise (· < ·)) :
    (places.map fun place => addr.extend (place.map .index)).Nodup := by
  have hdistinct : places.Nodup := by
    refine hascending.imp ?_
    rintro place _ hlt rfl
    exact List.lt_irrefl place hlt
  exact hdistinct.map fun left right heq => extend_positions_inj heq

namespace StepReader

section

variable {reader : StepReader σ α μ} {raw : Yaml} {items : List Yaml} {addr : Address} {ctx : σ}
  {shares : List (Share σ α μ)}

theorem Contributes.single {share : Share σ α μ} (hshare : reader.Contributes raw addr ctx share) :
    share.Single := by
  intro hcalled
  cases hshare with
  | kept _ _ => exact ⟨_, rfl⟩
  | expanded _ _ _ _ => cases hcalled
  | skipped _ _ _ => cases hcalled

theorem Contributes.address_of_kept {step : Step σ α μ}
    (hshare : reader.Contributes raw addr ctx { steps := [step], called := none }) :
    step.address = addr := by
  cases hshare with
  | kept hread _ => exact Vocabulary.address_of_readStep hread

theorem Contributes.address_of_expanded {steps : List (Step σ α μ)} {eager step : Step σ α μ}
    {inner : Nat} (hindexed : reader.dialect.Indexed)
    (hshare : reader.Contributes raw addr ctx { steps, called := some eager })
    (hstep : steps[inner]? = some step) : step.address = addr.idx inner := by
  cases hshare with
  | expanded _ _ _ hexpand => exact hindexed hexpand hstep
  | skipped _ _ _ => cases hstep

theorem InTurn.contributes {position : Nat} {share : Share σ α μ}
    (hturn : reader.InTurn addr 0 items ctx shares) (hlength : shares.length = items.length)
    (hshare : shares[position]? = some share) :
    ∃ item before, reader.Contributes item (addr.idx position) before share := by
  obtain ⟨hposition, -⟩ := List.getElem?_eq_some_iff.mp hshare
  have hitem := List.getElem?_eq_getElem (hlength ▸ hposition)
  have hcontributes := hturn position _ share hitem hshare
  rw [Nat.zero_add] at hcontributes
  exact ⟨_, _, hcontributes⟩

theorem InTurn.address_of_standsAt {place : List Nat} {step : Step σ α μ}
    (hindexed : reader.dialect.Indexed) (hturn : reader.InTurn addr 0 items ctx shares)
    (hlength : shares.length = items.length) (hstands : StandsAt shares place step) :
    step.address = addr.extend (place.map .index) := by
  cases hstands with
  | kept hshare =>
      obtain ⟨item, before, hcontributes⟩ := hturn.contributes hlength hshare
      exact hcontributes.address_of_kept
  | @expanded position inner eager step steps hshare hstep =>
      obtain ⟨item, before, hcontributes⟩ := hturn.contributes hlength hshare
      calc step.address
          = (addr.idx position).idx inner := hcontributes.address_of_expanded hindexed hstep
        _ = addr.extend [.index position, .index inner] :=
            (addr.extend_append [.index position] [.index inner]).symm

theorem InTurn.addresses {places : List (List Nat)} {steps : List (Step σ α μ)}
    (hindexed : reader.dialect.Indexed) (hturn : reader.InTurn addr 0 items ctx shares)
    (hlength : shares.length = items.length)
    (hplaces : List.Forall₂ (StandsAt shares) places steps) :
    steps.map Step.address = places.map fun place => addr.extend (place.map .index) := by
  induction hplaces with
  | nil => rfl
  | cons hstands _ ih => simp [hturn.address_of_standsAt hindexed hlength hstands, ih]

theorem InTurn.standsAt_places (hturn : reader.InTurn addr 0 items ctx shares)
    (hlength : shares.length = items.length) :
    List.Forall₂ (StandsAt shares) (placesFrom 0 shares) (shares.flatMap Share.steps) := by
  have hsingle : ∀ share ∈ shares, share.Single := by
    intro share hshare
    obtain ⟨position, hposition⟩ := List.mem_iff_getElem?.mp hshare
    obtain ⟨item, before, hcontributes⟩ := hturn.contributes hlength hposition
    exact hcontributes.single
  have hplaces := @standsAt_placesFrom _ _ _ [] shares hsingle
  rwa [List.nil_append] at hplaces

theorem ReadAs.exists_shares {start : Nat} {steps called : List (Step σ α μ)}
    (hread : reader.ReadAs addr start items ctx (.ok steps) called) :
    ∃ shares : List (Share σ α μ), shares.length = items.length ∧
      reader.InTurn addr start items ctx shares ∧ steps = shares.flatMap Share.steps := by
  cases hread with
  | @all shares hlength hturn => exact ⟨shares, hlength, hturn, rfl⟩

end

end StepReader

namespace Scripted

theorem dialect_indexed : dialect.Indexed := by
  intro value addr steps hexpand inner step hstep
  obtain ⟨raw, items, -, -, hsteps⟩ := expand_eq_ok_iff.mp hexpand
  obtain ⟨item, -, hread⟩ := readIncluded_of_expandItems hsteps hstep
  rw [Nat.zero_add] at hread
  exact Vocabulary.address_of_readStep hread

/-- The steps of a list that can be read are those that are kept and those of expansions,
at ascending places and at different addresses. -/
theorem readList_places {reader : StepReader Recorder String YamlMapping}
    (hdialect : reader.dialect = dialect) {raw : Yaml} {addr : Address} {ctx left : Recorder}
    {steps : List TextStep} (hread : reader.readList raw addr ctx = (.ok steps, left)) :
    ∃ items shares places, raw.items? = some items ∧
      shares.length = items.length ∧ reader.InTurn addr 0 items ctx shares ∧
      List.Forall₂ (StandsAt shares) places steps ∧
      steps.map Step.address =
        places.map (fun place => addr.extend (place.map .index)) ∧
      places.Pairwise (· < ·) ∧ (steps.map Step.address).Nodup := by
  have hindexed : reader.dialect.Indexed := hdialect ▸ dialect_indexed
  obtain ⟨result, called, hlist⟩ := reader.exists_listReadAs raw addr ctx
  obtain rfl : result = .ok steps := congrArg Prod.fst (hlist.readList_eq.symm.trans hread)
  cases hlist with
  | listed hitems hall =>
      obtain ⟨shares, hlength, hturn, rfl⟩ := hall.exists_shares
      have hplaces := hturn.standsAt_places hlength
      have haddresses := hturn.addresses hindexed hlength hplaces
      have hascending := placesFrom_ascending 0 shares
      exact ⟨_, shares, placesFrom 0 shares, hitems, hlength, hturn, hplaces, haddresses,
        hascending, haddresses ▸ nodup_of_ascending hascending⟩

/-- A lazy step, an `include` of two steps, one that is skipped, and a lazy step. -/
def mixedList : Yaml :=
  .seq
    [.str "echo", .map [(.str "include", .seq [.str "echo", .str "echo"])],
      .map [(.str "include", .seq []), (.str "skip", .bool true)], .str "echo"]

theorem mixedList_expand (addr : Address) :
    expand "- echo\n- echo\n" addr = .ok [echoStep (addr.idx 0), echoStep (addr.idx 1)] := by
  have hscan : Token.scan "- echo\n- echo\n" = .ok
      [.blockSequenceStart, .blockEntry, .scalar "echo" .plain, .blockEntry,
        .scalar "echo" .plain, .blockEnd] := by
    decide +kernel
  have hwritten : Yaml.ofText "- echo\n- echo\n" = .ok (.seq [.str "echo", .str "echo"]) := by
    simp only [Yaml.ofText, Document.ofText, hscan, bind, Except.bind]
    cbv
  have hecho : ∀ addr, readIncluded (.str "echo") addr = .ok (echoStep addr) :=
    readStep_echo .lenient
  have hsteps : expandItems addr 0 [.str "echo", .str "echo"] =
      .ok [echoStep (addr.idx 0), echoStep (addr.idx 1)] := by
    rw [expandItems_cons, hecho, expandItems_cons, hecho]
    rfl
  exact expand_eq_ok_iff.mpr ⟨_, _, hwritten, rfl, hsteps⟩

theorem mixedList_places :
    ∃ steps items shares places,
      (builtinReaderUnder .strict).readList mixedList (Address.root "steps.yaml") {} =
          (.ok steps, {}) ∧
        steps.map (fun step => step.address.path) = ["[0]", "[1][0]", "[1][1]", "[3]"] ∧
        mixedList.items? = some items ∧
        (builtinReaderUnder .strict).InTurn (Address.root "steps.yaml") 0 items {} shares ∧
        List.Forall₂ (StandsAt shares) places steps ∧ places.Pairwise (· < ·) ∧
        (steps.map Step.address).Nodup := by
  have htext : Builtin.includedText (.seq [.str "echo", .str "echo"]) =
      .ok "- echo\n- echo\n" := by
    decide +kernel
  have hinclude : ∀ addr ctx, (builtinReaderUnder .strict).readItem
      (.map [(.str "include", .seq [.str "echo", .str "echo"])]) addr ctx =
        (.ok [echoStep (addr.idx 0), echoStep (addr.idx 1)], ctx) := by
    intro addr ctx
    rw [readItem_include .strict rfl, htext]
    simp only [Except.bind, mixedList_expand]
  have hskipped : (builtinReaderUnder .strict).readItem
      (.map [(.str "include", .seq []), (.str "skip", .bool true)])
        ((Address.root "steps.yaml").idx 2) {} = (.ok [], {}) := by
    cbv
  have hitems : mixedList.items? = some
      [.str "echo", .map [(.str "include", .seq [.str "echo", .str "echo"])],
        .map [(.str "include", .seq []), (.str "skip", .bool true)], .str "echo"] := rfl
  have hread : (builtinReaderUnder .strict).readList mixedList (Address.root "steps.yaml") {} =
      (.ok [echoStep ((Address.root "steps.yaml").idx 0),
        echoStep (((Address.root "steps.yaml").idx 1).idx 0),
        echoStep (((Address.root "steps.yaml").idx 1).idx 1),
        echoStep ((Address.root "steps.yaml").idx 3)], {}) := by
    simp only [StepReader.readList, hitems, StepReader.readItems, readItem_echo, hinclude,
      hskipped]
    rfl
  obtain ⟨items, shares, places, hsome, -, hturn, hplaces, -, hascending, hnodup⟩ :=
    readList_places rfl hread
  refine ⟨_, items, shares, places, hread, ?_, hsome, hturn, hplaces, hascending, hnodup⟩
  decide +kernel

end Scripted

end StepChain
