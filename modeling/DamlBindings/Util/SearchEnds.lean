import DamlBindings.Lib.SearchLayers
import DamlBindings.Lf.PackageTermination
import DamlBindings.Util.NeededPackages

/-!
# Where the search for packages ends

The conversion of a package may never end, and then neither does a search that gets to it.  The
search gets to every package that can be reached, unless a package that is nearer to the root, or
one that is as near and comes first, cannot be converted.
-/

namespace DamlBindings.Util

open Lf BreadthFirst

/-! ### One package -/

/-- The conversion of the package gets to an entry of an interning table that is reached again from
itself. -/
def DamlLfArchivePayload.ReachesCycle (payload : DamlLfArchivePayload) : Prop :=
  ∃ P, payloadView payload = .ok P ∧ P.ReachesCycle

section Collect

variable {payload : DamlLfArchivePayload} {fuel fuel' : Nat}

lemma outcome_collect_of_ok {P : DamlPackagePayload} (h : payloadView payload = .ok P) :
    (collectReferencedPackageIds fuel payload).outcome = (P.buildPackage fuel).outcome := by
  unfold payloadView at h
  rw [collectReferencedPackageIds, Run.outcome_map, applyPayload, applyDalf, h]
  show ((DamlArchivePayload.fromSinglePackage P).buildArchive fuel >>= _).outcome = _
  unfold DamlArchivePayload.buildArchive DamlArchivePayload.fromSinglePackage
  rw [List.mapM_cons, List.mapM_nil]
  rcases P.buildPackage fuel with (_ | _) | package <;> rfl

lemma outcome_collect_of_error {e : DamlLfConvertError} (h : payloadView payload = .error e) :
    (collectReferencedPackageIds fuel payload).outcome = .fail := by
  unfold payloadView at h
  rw [collectReferencedPackageIds, Run.outcome_map, applyPayload, applyDalf, h]
  rfl

/-- The references of a package can be collected, or this fails, exactly when its conversion
gets to no cycle. -/
lemma collect_ends_iff :
    (∃ fuel, (collectReferencedPackageIds fuel payload).outcome ≠ .outOfFuel) ↔
      ¬ payload.ReachesCycle := by
  rcases hview : payloadView payload with e | P
  · simp [DamlLfArchivePayload.ReachesCycle, hview, outcome_collect_of_error hview]
  · simpa [DamlLfArchivePayload.ReachesCycle, hview, outcome_collect_of_ok hview]
      using P.buildPackage_ends_iff

lemma outcome_collect_of_le (hle : fuel ≤ fuel')
    (h : (collectReferencedPackageIds fuel payload).outcome ≠ .outOfFuel) :
    (collectReferencedPackageIds fuel' payload).outcome =
      (collectReferencedPackageIds fuel payload).outcome := by
  rcases hview : payloadView payload with e | P
  · rw [outcome_collect_of_error hview, outcome_collect_of_error hview]
  · rw [outcome_collect_of_ok hview] at h
    rw [outcome_collect_of_ok hview, outcome_collect_of_ok hview,
      DamlPackagePayload.outcome_buildPackage_of_le fuel hle h]

lemma mem_refs_iff {refs refs' : List String}
    (h : collectReferencedPackageIds fuel payload = .ok refs)
    (h' : collectReferencedPackageIds fuel' payload = .ok refs') {id : String} :
    id ∈ refs ↔ id ∈ refs' := by
  obtain ⟨P, hP, hmem⟩ := mem_collectReferencedPackageIds h
  obtain ⟨P', hP', hmem'⟩ := mem_collectReferencedPackageIds h'
  cases hP.symm.trans hP'
  rw [hmem, hmem']

lemma collect_eq_error {stop : Stop DamlLfConvertError} :
    collectReferencedPackageIds fuel payload = .error stop ↔
      applyPayload fuel payload = .error stop := Except.map_eq_error

/-- The conversion either returns or fails, whatever the fuel. -/
lemma ne_error_of_ok {refs : List String} {e : DamlLfConvertError}
    (h : collectReferencedPackageIds fuel payload = .ok refs) :
    collectReferencedPackageIds fuel' payload ≠ .error (.err e) := by
  intro h'
  have hmax : (collectReferencedPackageIds (max fuel fuel') payload).outcome =
      (collectReferencedPackageIds fuel payload).outcome :=
    outcome_collect_of_le (Nat.le_max_left fuel fuel') (by simp [h])
  have hmax' : (collectReferencedPackageIds (max fuel fuel') payload).outcome =
      (collectReferencedPackageIds fuel' payload).outcome :=
    outcome_collect_of_le (Nat.le_max_right fuel fuel') (by simp [h'])
  rw [hmax, h, h'] at hmax'
  cases hmax'

end Collect

/-! ### The packages of a payload map -/

section Payloads

variable (payloads : List (String × DamlLfArchivePayload))

/-- The package of the first id is in the payload map and refers to the second id. -/
def RefersTo (id id' : String) : Prop := ∃ fuel, Refers fuel payloads id id'

/-- If the package is in the payload map, its references can be collected. -/
def CanBeWalked (id : String) : Prop := ∃ fuel, Walkable fuel payloads id

/-- The package is in the payload map, and its conversion fails with an error. -/
def FailsToConvert (id : String) : Prop :=
  ∃ payload, payloads.lookup id = some payload ∧
    ∃ fuel e, applyPayload fuel payload = .error (.err e)

/-- The package is in the payload map, and its conversion gets to a cycle. -/
def Cyclic (id : String) : Prop :=
  ∃ payload, payloads.lookup id = some payload ∧ payload.ReachesCycle

/-- `reachable_from` returns in whichever order the hash sets are iterated over, and where every
package that is reached can be walked it returns the ids that are reached. -/
structure FindsReachable (root : String) : Prop where
  returns : ∀ order, ∃ fuel turns result,
    reachableFrom order fuel payloads root turns = some (Run.lift result)
  exact : ∀ order fuel turns result,
    reachableFrom order fuel payloads root turns = some (Run.lift result) →
    (∀ id, Relation.ReflTransGen (RefersTo payloads) root id → CanBeWalked payloads id) →
    ∃ ids, result = .ok ids ∧ ids.Nodup ∧
      ∀ id, id ∈ ids ↔ Relation.ReflTransGen (RefersTo payloads) root id

/-- Every package with a cycle is behind a package that fails: one that is reached along fewer
references. -/
def CyclesBehindFailures (root : String) : Prop :=
  ∀ d id, Within (RefersTo payloads) root d id → Cyclic payloads id →
    ∃ k < d, ∃ id', Within (RefersTo payloads) root k id' ∧ FailsToConvert payloads id'

variable {payloads} {fuel : Nat} {root id id' : String}

variable (payloads) in
/-- There is fuel enough for all packages without a cycle. -/
lemma exists_enough_fuel : ∃ fuel, ∀ id payload, payloads.lookup id = some payload →
    ¬ payload.ReachesCycle → (collectReferencedPackageIds fuel payload).outcome ≠ .outOfFuel := by
  have hlist : ∀ ps : List DamlLfArchivePayload, ∃ fuel, ∀ payload ∈ ps, ¬ payload.ReachesCycle →
      (collectReferencedPackageIds fuel payload).outcome ≠ .outOfFuel := by
    intro ps
    induction ps with
    | nil => exact ⟨0, List.forall_mem_nil _⟩
    | cons payload ps ih =>
      obtain ⟨fuel, hfuel⟩ := ih
      by_cases hcycle : payload.ReachesCycle
      · exact ⟨fuel, List.forall_mem_cons.2 ⟨fun h => absurd hcycle h, hfuel⟩⟩
      obtain ⟨fuel', hfuel'⟩ := collect_ends_iff.2 hcycle
      refine ⟨max fuel fuel', List.forall_mem_cons.2 ⟨fun _ => ?_, fun p hp hpcycle => ?_⟩⟩
      · rw [outcome_collect_of_le (Nat.le_max_right fuel fuel') hfuel']
        exact hfuel'
      · rw [outcome_collect_of_le (Nat.le_max_left fuel fuel') (hfuel p hp hpcycle)]
        exact hfuel p hp hpcycle
  obtain ⟨fuel, hfuel⟩ := hlist (payloads.map Prod.snd)
  exact ⟨fuel, fun id payload hpayload =>
    hfuel payload (List.mem_map_of_mem (AssocMap.mem_of_lookup hpayload))⟩

/-- A package that is walked with some fuel has all its references there. -/
lemma refers_of_refersTo (h : RefersTo payloads id id') (hwalk : Walkable fuel payloads id) :
    Refers fuel payloads id id' := by
  obtain ⟨fuel', payload, refs', hpayload, hrefs', hmem⟩ := h
  obtain ⟨refs, hrefs⟩ := hwalk payload hpayload
  exact ⟨payload, refs, hpayload, hrefs, (mem_refs_iff hrefs hrefs').2 hmem⟩

lemma CanBeWalked.not_fails (h : CanBeWalked payloads id) : ¬ FailsToConvert payloads id := by
  rintro ⟨payload, hpayload, fuel', e, he⟩
  obtain ⟨fuel, hwalk⟩ := h
  obtain ⟨refs, hrefs⟩ := hwalk payload hpayload
  exact ne_error_of_ok hrefs (collect_eq_error.2 he)

lemma follows_eq_refers (order : IterationOrder String) :
    Follows (references order fuel payloads) = Refers fuel payloads :=
  funext fun _ => funext fun _ => propext mem_successors

/-! ### Every search returns -/

/-- A package that the search gets to along walked packages is reached there as well. -/
lemma within_refers {d : Nat} (hwalk : ∀ k < d, ∀ id, Within (Refers fuel payloads) root k id →
    Walkable fuel payloads id) {k : Nat} (hk : k ≤ d) (h : Within (RefersTo payloads) root k id) :
    Within (Refers fuel payloads) root k id := by
  induction h with
  | root => exact .root
  | step _ hnext ih =>
    have hreached := ih (by omega)
    exact hreached.step (refers_of_refersTo hnext (hwalk _ (by omega) _ hreached))

/-- With enough fuel, a search that runs out of it has got to a cycle before any failure. -/
lemma CyclesBehindFailures.ne_outOfFuel (h : CyclesBehindFailures payloads root)
    (hfuel : ∀ id payload, payloads.lookup id = some payload → ¬ payload.ReachesCycle →
      (collectReferencedPackageIds fuel payload).outcome ≠ .outOfFuel)
    (order : IterationOrder String) (turns : Nat) :
    reachableFrom order fuel payloads root turns ≠ some (.error .outOfFuel) := by
  intro hloop
  obtain ⟨d, id, hid, hnext, hnear⟩ := (Layers.init _ root).nearest_of_loop rfl hloop
  rw [follows_eq_refers] at hid
  have hwalk : ∀ k < d, ∀ id, Within (Refers fuel payloads) root k id →
      Walkable fuel payloads id := by
    intro k hk id' hid'
    rw [← follows_eq_refers order] at hid'
    exact exists_references_eq_ok.1 (hnear k hk id' hid')
  -- the package at which the fuel ran out has a cycle
  obtain ⟨payload, hpayload, hstop⟩ := references_eq_error.1 hnext
  have hcycle : Cyclic payloads id := by
    refine ⟨payload, hpayload, ?_⟩
    by_contra hcycle
    exact hfuel id payload hpayload hcycle (by rw [hstop]; rfl)
  obtain ⟨k, hk, id', hid', hfails⟩ := h d id (hid.imp fun _ _ hr => ⟨fuel, hr⟩) hcycle
  have hwalk' := hwalk k hk id' (within_refers (fun j hj => hwalk j (by omega)) le_rfl hid')
  exact CanBeWalked.not_fails ⟨fuel, hwalk'⟩ hfails

lemma CyclesBehindFailures.returns (h : CyclesBehindFailures payloads root)
    (order : IterationOrder String) :
    ∃ fuel turns result,
      reachableFrom order fuel payloads root turns = some (Run.lift result) := by
  obtain ⟨fuel, hfuel⟩ := exists_enough_fuel payloads
  have hinner : HasInner (references order fuel payloads) (AssocMap.keys payloads) :=
    hasInner_references
  obtain ⟨turns, hturns⟩ := BreadthFirst.terminates hinner [] [root]
  obtain ⟨result, hresult⟩ := Option.ne_none_iff_exists'.1 hturns
  have hne : result ≠ .error .outOfFuel := by
    rintro rfl
    exact h.ne_outOfFuel hfuel order turns hresult
  obtain ⟨r, rfl⟩ := Run.exists_lift hne
  exact ⟨fuel, turns, r, hresult⟩

/-! ### What it returns -/

lemma refersTo_of_refers (h : Relation.ReflTransGen (Refers fuel payloads) root id) :
    Relation.ReflTransGen (RefersTo payloads) root id :=
  Relation.ReflTransGen.mono (fun _ _ hr => ⟨fuel, hr⟩) _ _ h

/-- With the packages that are reached walked, the search reaches all of them. -/
lemma reaches_iff_refersTo (hwalk : ∀ id, Relation.ReflTransGen (Refers fuel payloads) root id →
    Walkable fuel payloads id) :
    Relation.ReflTransGen (Refers fuel payloads) root id ↔
      Relation.ReflTransGen (RefersTo payloads) root id := by
  constructor
  · exact refersTo_of_refers
  · intro h
    induction h with
    | refl => exact .refl
    | tail _ hnext ih => exact ih.tail (refers_of_refersTo hnext (hwalk _ ih))

variable (payloads root) in
lemma reachableFrom_exact (order : IterationOrder String) (fuel turns : Nat)
    (result : DamlLfConvertResult (List String))
    (hloop : reachableFrom order fuel payloads root turns = some (Run.lift result))
    (hwalk : ∀ id, Relation.ReflTransGen (RefersTo payloads) root id → CanBeWalked payloads id) :
    ∃ ids, result = .ok ids ∧ ids.Nodup ∧
      ∀ id, id ∈ ids ↔ Relation.ReflTransGen (RefersTo payloads) root id := by
  rcases result with e | ids
  · -- the search cannot have failed: what it has reached can be walked
    obtain ⟨id, hreach, payload, hpayload, herror⟩ := reachableFrom_eq_error hloop
    have hid := hwalk id (refersTo_of_refers hreach)
    exact absurd ⟨payload, hpayload, fuel, e, collect_eq_error.1 herror⟩ hid.not_fails
  · obtain ⟨hnodup, hmem, hwalked⟩ := reachableFrom_eq_ok hloop
    refine ⟨ids, rfl, hnodup, fun id => ?_⟩
    rw [hmem, reaches_iff_refersTo fun id hid => hwalked id ((hmem id).2 hid)]

/-! ### A search that never returns -/

/-- The hash sets are iterated over with the ids of a path in front. -/
def IterationOrder.prefer (path : List String) : IterationOrder String where
  list ids := ids.filter (· ∈ path) ++ ids.filter (· ∉ path)
  perm ids := by
    have hperm := List.filter_append_perm (fun id => decide (id ∈ path)) ids
    simpa using hperm

lemma Cyclic.references_eq (h : Cyclic payloads id) (order : IterationOrder String) (fuel : Nat) :
    references order fuel payloads id = .error .outOfFuel := by
  obtain ⟨payload, hpayload, hcycle⟩ := h
  refine references_eq_error.2 ⟨payload, hpayload, ?_⟩
  by_contra hstop
  exact collect_ends_iff.1 ⟨fuel, fun hout => hstop (Run.outcome_eq_outOfFuel.1 hout)⟩ hcycle

lemma refersTo_of_mem {order : IterationOrder String} {ids : List String}
    (h : references order fuel payloads id = .ok ids) (hid : id' ∈ ids) :
    RefersTo payloads id id' := by
  rw [← successors_of_ok h] at hid
  exact ⟨fuel, mem_successors.1 hid⟩

/-- On a path that no id is reached sooner along, the preferred ids in front of the next one have
been reached before. -/
lemma exists_prefer_eq {p : Nat → String} {d k : Nat} {ids : List String} (hk : k < d)
    (hnext : p (k + 1) ∈ ids)
    (hids : ∀ j ≤ d, k + 1 < j → p j ∉ ids) :
    ∃ pre post, (IterationOrder.prefer ((List.range (d + 1)).map p)).list ids =
      pre ++ p (k + 1) :: post ∧ ∀ id ∈ pre, ∃ j ≤ k, p j = id := by
  have hmem : p (k + 1) ∈ ids.filter (· ∈ (List.range (d + 1)).map p) := by
    refine List.mem_filter.2 ⟨hnext, ?_⟩
    simp only [List.mem_map, List.mem_range, decide_eq_true_eq]
    exact ⟨k + 1, by omega, rfl⟩
  obtain ⟨pre, post, hsplit, hpre⟩ := List.eq_append_cons_of_mem hmem
  refine ⟨pre, post ++ ids.filter (· ∉ (List.range (d + 1)).map p), ?_, fun id hid => ?_⟩
  · show ids.filter (· ∈ (List.range (d + 1)).map p) ++ _ = _
    rw [hsplit, List.append_assoc, List.cons_append]
  · have hpath : id ∈ ids.filter (· ∈ (List.range (d + 1)).map p) :=
      hsplit ▸ List.mem_append_left _ hid
    simp only [List.mem_filter, List.mem_map, List.mem_range, decide_eq_true_eq] at hpath
    obtain ⟨hin, j, hj, rfl⟩ := hpath
    refine ⟨j, ?_, rfl⟩
    by_contra hjk
    rcases Nat.lt_or_eq_of_le (Nat.not_le.1 hjk) with hlt | rfl
    · exact hids j (by omega) hlt hin
    · exact hpre hid

/-- Along a shortest path to a cycle that no failure precedes, the search runs out of any fuel. -/
lemma leads_to_cycle {p : Nat → String} {d : Nat}
    (hpath : ∀ k < d, RefersTo payloads (p k) (p (k + 1))) (hcycle : Cyclic payloads (p d))
    (hmin : ∀ k < d, ∀ id, Within (RefersTo payloads) (p 0) k id →
      ¬ Cyclic payloads id ∧ ¬ FailsToConvert payloads id)
    (fuel : Nat) :
    Leads (references (.prefer ((List.range (d + 1)).map p)) fuel payloads) (RefersTo payloads) p d
      .outOfFuel := by
  have hshortest : ∀ k ≤ d, ∀ j < k, ¬ Within (RefersTo payloads) (p 0) j (p k) := by
    intro k hk j hj h
    have hd := h.along (d - k) fun l _ hl => hpath l (by omega)
    rw [Nat.add_sub_cancel' hk] at hd
    exact (hmin _ (by omega) _ hd).1 hcycle
  have hwithin : ∀ k ≤ d, Within (RefersTo payloads) (p 0) k (p k) := fun k hk =>
    .of_path fun l hl => hpath l (by omega)
  refine ⟨fun h m hm => refersTo_of_mem h hm, fun k hk id stop hid hnext => ?_,
    hcycle.references_eq _ fuel, fun k hk ids hids => ?_, hpath, hshortest⟩
  · obtain ⟨payload, hpayload, hstop⟩ := references_eq_error.1 hnext
    rcases stop with _ | e
    · rfl
    · exact absurd ⟨payload, hpayload, fuel, e, collect_eq_error.1 hstop⟩ (hmin k hk id hid).2
  · obtain ⟨payload, refs, hpayload, hrefs, hmem⟩ := refers_of_refersTo (hpath k hk)
      (exists_references_eq_ok.1 ⟨ids, hids⟩)
    cases hids.symm.trans (references_of_lookup hpayload hrefs)
    refine exists_prefer_eq hk hmem fun j hj hlt hin => ?_
    refine hshortest j hj (k + 1) hlt ((hwithin k (by omega)).step ?_)
    exact ⟨fuel, payload, refs, hpayload, hrefs, hin⟩

lemma FindsReachable.cyclesBehindFailures (h : FindsReachable payloads root) :
    CyclesBehindFailures payloads root := by
  by_contra hnot
  simp only [CyclesBehindFailures, not_forall, not_exists, not_and] at hnot
  obtain ⟨d', id', hid', hcycle', hnear⟩ := hnot
  -- the cycle that is reached along the fewest references
  obtain ⟨d, ⟨id, hid, hcycle⟩, hleast⟩ := Nat.lt_wfRel.wf.has_min
    {d | ∃ id, Within (RefersTo payloads) root d id ∧ Cyclic payloads id} ⟨d', id', hid', hcycle'⟩
  have hle : d ≤ d' := Nat.not_lt.1 (hleast d' ⟨id', hid', hcycle'⟩)
  obtain ⟨p, rfl, rfl, hpath⟩ := hid.exists_path fun k hk hn => hleast k ⟨_, hn, hcycle⟩ hk
  have hleads := leads_to_cycle hpath hcycle fun k hk id hn =>
    ⟨fun hc => hleast k ⟨id, hn, hc⟩ hk, hnear k (by omega) id hn⟩
  obtain ⟨fuel, turns, result, hloop⟩ := h.returns (.prefer ((List.range (d + 1)).map p))
  exact Run.lift_ne_outOfFuel result ((hleads fuel).eq_error hloop)

variable (payloads root) in
/-- The search meets its purpose from a root exactly when every package with a cycle is behind one
that fails. -/
theorem findsReachable_iff :
    FindsReachable payloads root ↔ CyclesBehindFailures payloads root :=
  ⟨FindsReachable.cyclesBehindFailures, fun h => ⟨h.returns, reachableFrom_exact payloads root⟩⟩

end Payloads

/-- A package with one record, whose field has an interned type that refers to itself. -/
def selfReferringPayload : DamlLfArchivePayload where
  languageVersion := .lv2 .v1
  package :=
    { modules := [
        { nameInternedDname := 0
          flags := some ⟨true, true, true⟩
          synonyms := []
          dataTypes := [⟨1, [], true, .record [⟨2, some (.internedType 0)⟩]⟩]
          values := []
          templates := []
          exceptions := []
          interfaces := [] }]
      internedStrings := ["M", "R", "f", "pkg", "1.0.0"]
      internedDottedNames := [[0], [1]]
      metadata := some ⟨3, 4⟩
      internedTypes := [.internedType 0]
      internedKinds := []
      internedExprs := [] }

lemma selfReferringPayload_reachesCycle : selfReferringPayload.ReachesCycle := by
  -- the names of the module, of the record and of its field resolve, and then comes the type
  refine ⟨_, rfl, [.check true, .check true, .check true, .check true],
    .sub (.type (.internedType 0)), [], rfl, ?_, .type (.internedType 0), rfl, ?_⟩
  · intro q hq
    obtain rfl : q = .check true := by simpa using hq
    exact ⟨by simp, fun m hm => by cases hm⟩
  · exact ⟨.inr (.inl ⟨0, by decide⟩), .head rfl, .head rfl⟩

/-- From a package with a cycle the search never returns. -/
theorem reachableFrom_selfReferring : ¬ FindsReachable [("a", selfReferringPayload)] "a" := by
  intro h
  obtain ⟨fuel, turns, result, hloop⟩ := h.returns ⟨id, fun _ => .refl _⟩
  have hcycle : Cyclic [("a", selfReferringPayload)] "a" :=
    ⟨selfReferringPayload, rfl, selfReferringPayload_reachesCycle⟩
  cases turns with
  | zero => cases hloop
  | succ turns =>
    rw [reachableFrom, loop_of_error (List.not_mem_nil) (hcycle.references_eq _ fuel),
      Option.some.injEq] at hloop
    exact Run.lift_ne_outOfFuel result hloop.symm

end DamlBindings.Util
