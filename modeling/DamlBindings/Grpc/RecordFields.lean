import DamlBindings.Grpc.Serialize

/-!
# Taking the fields of a record

`DamlRecord::field` reads the value under a label, and `take_field` takes it out of the record
(`data/value/record.rs`).  A record may have several fields under one label, and fields under none.
-/

namespace DamlBindings.Grpc

namespace DamlRecord

variable {V : Type} (r : DamlRecord V)

/-- `field` -/
def field (label : String) : DamlResult V :=
  match r.fields.findSome? fun rec => if rec.label = some label then some rec.value else none with
  | some value => .ok value
  | none => .error (.unknownField label)

/-- `take_field`, with the record as it is afterwards. -/
def takeField (label : String) : DamlResult V × DamlRecord V :=
  match r.fields.findFinIdx? fun rec => rec.label = some label with
  | some idx => (.ok r.fields[idx].value, { r with fields := r.fields.eraseIdx idx })
  | none => (.error (.unknownField label), r)

/-- The results of several requests, one after the other. -/
def takeFields (r : DamlRecord V) : List String → List (DamlResult V) × DamlRecord V
  | [] => ([], r)
  | label :: labels =>
    let (result, r) := r.takeField label
    let (results, r) := takeFields r labels
    (result :: results, r)

/-- The values under a label, in the order of the fields. -/
def occurrences (label : String) : List V :=
  (r.fields.filter fun f => f.label = some label).map (·.value)

/-- What a request for the label is to return after `k` others for it. -/
def occurrence (label : String) (k : Nat) : DamlResult V :=
  match (r.occurrences label)[k]? with
  | some value => .ok value
  | none => .error (.unknownField label)

/-! ### One request -/

section TakeField

variable {r} {label : String}

/-- Either no field has the label, or the first that has it is taken out. -/
lemma takeField_cases (r : DamlRecord V) (label : String) :
    (∀ f ∈ r.fields, f.label ≠ some label) ∧
        r.takeField label = (.error (.unknownField label), r) ∨
      ∃ front f back, r.fields = front ++ f :: back ∧ (∀ g ∈ front, g.label ≠ some label) ∧
        f.label = some label ∧
        r.takeField label = (.ok f.value, { r with fields := front ++ back }) := by
  rcases hfind : r.fields.findFinIdx? fun rec => rec.label = some label with _ | idx
  · refine .inl ⟨fun f hf => ?_, by rw [takeField, hfind]⟩
    simpa using List.findFinIdx?_eq_none_iff.1 hfind f hf
  · obtain ⟨hidx, hfirst⟩ := List.findFinIdx?_eq_some_iff.1 hfind
    refine .inr ⟨r.fields.take idx, r.fields[idx], r.fields.drop (idx + 1), ?_, ?_, ?_, ?_⟩
    · rw [Fin.getElem_fin, List.getElem_cons_drop, List.take_append_drop]
    · intro g hg
      obtain ⟨j, hj, rfl⟩ := List.mem_take_iff_getElem.1 hg
      have hlt : j < idx.val := by omega
      simpa using hfirst ⟨j, by omega⟩ hlt
    · simpa using hidx
    · rw [takeField, hfind, ← List.eraseIdx_eq_take_drop_succ]

/-- A label that no field has. -/
lemma takeField_of_missing (h : ∀ f ∈ r.fields, f.label ≠ some label) :
    r.takeField label = (.error (.unknownField label), r) := by
  obtain ⟨-, htake⟩ | ⟨front, f, back, hfields, -, hf, -⟩ := takeField_cases r label
  · exact htake
  · have hmem : f ∈ r.fields := by simp [hfields]
    exact absurd hf (h f hmem)

lemma recordId_takeField : (r.takeField label).2.recordId = r.recordId := by
  obtain ⟨-, htake⟩ | ⟨front, f, back, -, -, -, htake⟩ := takeField_cases r label <;> rw [htake]

lemma takeField_sublist : (r.takeField label).2.fields.Sublist r.fields := by
  obtain ⟨-, htake⟩ | ⟨front, f, back, hfields, -, -, htake⟩ := takeField_cases r label
  · rw [htake]
  · rw [htake, hfields]
    exact (List.sublist_cons_self f back).append_left front

/-- A request takes the first field under its label and none under another one. -/
lemma filter_takeField (l : Option String) :
    (r.takeField label).2.fields.filter (fun f => f.label = l) =
      (r.fields.filter fun f => f.label = l).drop (if l = some label then 1 else 0) := by
  obtain ⟨hmissing, htake⟩ | ⟨front, f, back, hfields, hfront, hf, htake⟩ := takeField_cases r label
  · rw [htake]
    split_ifs with hl
    · subst hl
      have hnil : r.fields.filter (fun f => f.label = some label) = [] := by
        simpa [List.filter_eq_nil_iff] using hmissing
      rw [hnil, List.drop_nil]
    · rfl
  · rw [htake, hfields]
    split_ifs with hl
    · subst hl
      have hnil : front.filter (fun f => f.label = some label) = [] := by
        simpa [List.filter_eq_nil_iff] using hfront
      simp [hnil, hf]
    · have hne : ¬ f.label = l := fun h => hl (h.symm.trans hf)
      simp [hne]

lemma occurrences_takeField_self :
    (r.takeField label).2.occurrences label = (r.occurrences label).tail := by
  rw [occurrences, filter_takeField, if_pos rfl, List.map_drop, List.drop_one]
  rfl

lemma occurrences_takeField_of_ne {l : String} (h : l ≠ label) :
    (r.takeField label).2.occurrences l = r.occurrences l := by
  have hl : some l ≠ some label := fun heq => h (Option.some.inj heq)
  rw [occurrences, filter_takeField, if_neg hl, List.drop_zero]
  rfl

lemma occurrence_takeField_self (k : Nat) :
    (r.takeField label).2.occurrence label k = r.occurrence label (k + 1) := by
  rw [occurrence, occurrences_takeField_self, List.getElem?_tail]
  rfl

lemma occurrence_takeField_of_ne {l : String} (h : l ≠ label) (k : Nat) :
    (r.takeField label).2.occurrence l k = r.occurrence l k := by
  rw [occurrence, occurrences_takeField_of_ne h]
  rfl

lemma takeField_eq_occurrence : (r.takeField label).1 = r.occurrence label 0 := by
  obtain ⟨hmissing, htake⟩ | ⟨front, f, back, hfields, hfront, hf, htake⟩ := takeField_cases r label
  · have hnil : r.occurrences label = [] := by
      simpa [occurrences, List.filter_eq_nil_iff] using hmissing
    rw [htake, occurrence, hnil]
    rfl
  · have hcons : r.occurrences label =
        f.value :: (back.filter fun f => f.label = some label).map (·.value) := by
      have hnil : front.filter (fun f => f.label = some label) = [] := by
        simpa [List.filter_eq_nil_iff] using hfront
      simp [occurrences, hfields, hnil, hf]
    rw [htake, occurrence, hcons]
    rfl

/-- `field` reads what `take_field` takes. -/
lemma field_eq_occurrence : r.field label = r.occurrence label 0 := by
  have hhead : (r.fields.findSome? fun rec =>
      if rec.label = some label then some rec.value else none) = (r.occurrences label)[0]? := by
    rw [occurrences, ← List.head?_eq_getElem?]
    induction r.fields with
    | nil => rfl
    | cons f fs ih =>
      rw [List.findSome?_cons, List.filter_cons]
      by_cases hf : f.label = some label
      · simp [hf]
      · simpa [hf] using ih
  rw [field, hhead]
  rfl

end TakeField

/-! ### Several requests -/

section TakeFields

variable {r} {labels : List String} {label : String}

lemma takeFields_cons : r.takeFields (label :: labels) =
    ((r.takeField label).1 :: ((r.takeField label).2.takeFields labels).1,
      ((r.takeField label).2.takeFields labels).2) := rfl

lemma recordId_takeFields : (r.takeFields labels).2.recordId = r.recordId := by
  induction labels generalizing r with
  | nil => rfl
  | cons label labels ih => rw [takeFields_cons, ih, recordId_takeField]

lemma takeFields_sublist : (r.takeFields labels).2.fields.Sublist r.fields := by
  induction labels generalizing r with
  | nil => exact .refl _
  | cons label labels ih => exact ih.trans takeField_sublist

/-- The fields under a label that are left: as many as there were requests for it are gone, from
the front. -/
lemma filter_takeFields (l : Option String) :
    (r.takeFields labels).2.fields.filter (fun f => f.label = l) =
      (r.fields.filter fun f => f.label = l).drop ((labels.map some).count l) := by
  induction labels generalizing r with
  | nil => rfl
  | cons label labels ih =>
    rw [takeFields_cons, ih, filter_takeField, List.drop_drop, List.map_cons, List.count_cons]
    congr 1
    by_cases hl : l = some label
    · simp [hl, Nat.add_comm]
    · simp [hl, Ne.symm hl]

/-- Requests for distinct labels do not disturb each other. -/
lemma takeFields_of_nodup (h : labels.Nodup) : (r.takeFields labels).1 = labels.map r.field := by
  induction labels generalizing r with
  | nil => rfl
  | cons label labels ih =>
    obtain ⟨hlabel, hnodup⟩ := List.nodup_cons.1 h
    have hrest : labels.map (r.takeField label).2.field = labels.map r.field := by
      refine List.map_congr_left fun l hl => ?_
      have hne : l ≠ label := fun heq => hlabel (heq ▸ hl)
      rw [field_eq_occurrence, occurrence_takeField_of_ne hne, field_eq_occurrence]
    rw [takeFields_cons]
    show (r.takeField label).1 :: _ = _
    rw [ih hnodup, hrest, List.map_cons, takeField_eq_occurrence, field_eq_occurrence]

/-- The requests for one label, among others, return its values from the first to the last. -/
lemma results_takeFields :
    ((labels.zip (r.takeFields labels).1).filter fun p => p.1 = label).map Prod.snd =
      (List.range (labels.count label)).map (r.occurrence label) := by
  induction labels generalizing r with
  | nil => rfl
  | cons l labels ih =>
    rw [takeFields_cons, List.zip_cons_cons, List.filter_cons]
    by_cases hl : l = label
    · subst hl
      have hrest : (r.takeField l).2.occurrence l = r.occurrence l ∘ Nat.succ :=
        funext fun k => occurrence_takeField_self k
      rw [if_pos (decide_eq_true rfl), List.map_cons, ih, List.count_cons_self,
        List.range_succ_eq_map, List.map_cons, List.map_map, takeField_eq_occurrence, hrest]
    · have hrest : (r.takeField l).2.occurrence label = r.occurrence label :=
        funext fun k => occurrence_takeField_of_ne (Ne.symm hl) k
      rw [if_neg (by simpa using hl), ih, List.count_cons_of_ne hl, hrest]

end TakeFields

/-- The laws of `take_field`, for any requests in any order.  Requests for distinct labels return
what `field` returns on the record as it was; one for a label that is missing is an error and
changes nothing; of the fields under a label as many are gone, from the front, as there were
requests for it, and the others stay in their order; the requests for a label return its values
from the first to the last. -/
theorem takeFields_laws (labels : List String) :
    (labels.Nodup → (r.takeFields labels).1 = labels.map r.field) ∧
    (∀ label, (∀ f ∈ r.fields, f.label ≠ some label) →
      r.takeField label = (.error (.unknownField label), r)) ∧
    ((r.takeFields labels).2.recordId = r.recordId ∧
      (r.takeFields labels).2.fields.Sublist r.fields ∧
      ∀ l : Option String, (r.takeFields labels).2.fields.filter (fun f => f.label = l) =
        (r.fields.filter fun f => f.label = l).drop ((labels.map some).count l)) ∧
    ∀ label, ((labels.zip (r.takeFields labels).1).filter fun p => p.1 = label).map Prod.snd =
      (List.range (labels.count label)).map (r.occurrence label) :=
  ⟨takeFields_of_nodup, fun _ => takeField_of_missing,
    ⟨recordId_takeFields, takeFields_sublist, filter_takeFields⟩, fun _ => results_takeFields⟩

end DamlRecord

section Deserialize

variable {N D T : Type} {label : String}

lemma takeField_missing {fs : List (DamlRecordField (DamlValue N D T))}
    (h : ∀ f ∈ fs, f.label ≠ some label) : takeField label fs = .error (.unknownField label) := by
  induction fs with
  | nil => rfl
  | cons f fs ih =>
    obtain ⟨hf, hfs⟩ := List.forall_mem_cons.1 h
    rw [takeField, if_neg hf, ih hfs]

lemma takeField_append {front back : List (DamlRecordField (DamlValue N D T))}
    {f : DamlRecordField (DamlValue N D T)} (hfront : ∀ g ∈ front, g.label ≠ some label)
    (hf : f.label = some label) :
    takeField label (front ++ f :: back) = .ok (f.value, front ++ back) := by
  induction front with
  | nil => rw [List.nil_append, takeField, if_pos hf, List.nil_append]
  | cons g front ih =>
    obtain ⟨hg, hfront⟩ := List.forall_mem_cons.1 hfront
    rw [List.cons_append, takeField, if_neg hg, ih hfront, List.cons_append]

/-- The deserialisers take a field in the same way. -/
lemma takeField_eq (label : String) (r : DamlRecord (DamlValue N D T)) :
    r.takeField label =
      match takeField label r.fields with
      | .ok (v, rest) => (.ok v, { r with fields := rest })
      | .error e => (.error e, r) := by
  obtain ⟨hmissing, htake⟩ | ⟨front, f, back, hfields, hfront, hf, htake⟩ :=
    r.takeField_cases label
  · rw [htake, takeField_missing hmissing]
  · rw [htake, hfields, takeField_append hfront hf]

end Deserialize

end DamlBindings.Grpc
