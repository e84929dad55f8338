import DamlBindings.Lf.Parts
import DamlBindings.Lf.TypeReferences

/-!
# The references of an expression

Visiting a converted expression reports the names of the type constructors and of the values
that occur in the expression on the wire, and what visiting its converted types reports, each as
often as it occurs and in the order in which the conversion reads them.
-/

namespace DamlBindings.Lf

open Proto

/-- What an expression on the wire refers to: a type constructor or a value by its id, or
whatever a type in it refers to. -/
inductive Occurrence where
  | tycon (id : TypeConId)
  | value (id : ValueId)
  | type (t : Ty)

/-- The names that a visitor sees, of type constructors and of values. -/
abbrev visitedNames : List Callback → List VisitedName := visited Element.name?

@[simp] lemma DamlTyConName.visitedNames_accept (n : DamlTyConName) :
    visitedNames n.accept = [.tycon n] := by
  rcases n with c | c | c <;> rfl

@[simp] lemma DamlValueName.visitedNames_accept (n : DamlValueName) :
    visitedNames n.accept = [.value n] := by
  rcases n with c | c <;> rfl

section Accept

attribute [local simp] DamlKind.accept Element.name?

mutual

@[simp] lemma DamlKind.visitedNames_accept (k : DamlKind) : visitedNames k.accept = [] := by
  match k with
  | .star => rfl
  | .nat => rfl
  | .arrow params result =>
    simp [visitedNames_acceptKinds params, DamlKind.visitedNames_accept result]

lemma visitedNames_acceptKinds (ks : List DamlKind) : visitedNames (acceptKinds ks) = [] := by
  match ks with
  | [] => rfl
  | k :: ks =>
    have happend : visitedNames (acceptKinds (k :: ks)) =
        visitedNames k.accept ++ visitedNames (acceptKinds ks) := visited_append _ _ _
    rw [happend, DamlKind.visitedNames_accept k, visitedNames_acceptKinds ks, List.append_nil]

end

@[simp] lemma DamlTypeVarWithKind.visitedNames_accept (v : DamlTypeVarWithKind) :
    visitedNames v.accept = [] := by
  simp [DamlTypeVarWithKind.accept]

end Accept

namespace DamlPackageTables

variable (P : DamlPackageTables)

/-- The names reported for an occurrence: the id resolved to a name, or what visiting the
converted type reports. -/
def occurrenceNames (fuel : Nat) : Occurrence → ConvertRun (List VisitedName)
  | .tycon id => .lift ((fun n => [.tycon n]) <$> P.convertTyconId id)
  | .value id => .lift ((fun n => [.value n]) <$> P.convertValueId id)
  | .type t => (fun d : DamlType => visitedNames d.accept) <$> P.convertType fuel t

/-- The occurrences in a part of an expression. -/
def partOccurrences (occurrences : Expr → List Occurrence) : Part → List Occurrence
  | .tycon id => [.tycon id]
  | .value id => [.value id]
  | .type t => [.type t]
  | .expr e => occurrences e
  | .internedExpr i => (entryAt P.internedExprs i).toList.flatMap occurrences
  | _ => []

/-- All occurrences in an expression, with the interned expressions it refers to expanded.  The
fuel bounds the depth of the expansion. -/
def exprOccurrences : Nat → Expr → List Occurrence
  | 0, _ => []
  | fuel + 1, e => e.parts.flatMap (P.partOccurrences (exprOccurrences fuel))

/-- `names` are the names reported for the occurrences, in order. -/
def Named (fuel : Nat) (occurrences : List Occurrence) (names : List VisitedName) : Prop :=
  List.flatten <$> occurrences.mapM (P.occurrenceNames fuel) = .ok names

variable {P} {fuel : Nat}

lemma named_iff {os : List Occurrence} {names : List VisitedName} :
    P.Named fuel os names ↔ ∃ nss, List.Forall₂ (fun o ns => P.occurrenceNames fuel o = .ok ns)
      os nss ∧ nss.flatten = names := by
  simp [Named, Except.mapM_eq_ok]

lemma Named.nil : P.Named fuel [] [] := rfl

lemma Named.single {o : Occurrence} {ns : List VisitedName}
    (h : P.occurrenceNames fuel o = .ok ns) : P.Named fuel [o] ns :=
  named_iff.2 ⟨[ns], .cons h .nil, by simp⟩

lemma Named.append {os os' : List Occurrence} {ns ns' : List VisitedName} (h : P.Named fuel os ns)
    (h' : P.Named fuel os' ns') : P.Named fuel (os ++ os') (ns ++ ns') := by
  obtain ⟨nss, hnss, rfl⟩ := named_iff.1 h
  obtain ⟨nss', hnss', rfl⟩ := named_iff.1 h'
  exact named_iff.2 ⟨nss ++ nss', List.rel_append hnss hnss', List.flatten_append⟩

lemma Named.flatMap {α β : Type} {as : List α} {bs : List β} {os : α → List Occurrence}
    {names : β → List VisitedName}
    (h : List.Forall₂ (fun a b => P.Named fuel (os a) (names b)) as bs) :
    P.Named fuel (as.flatMap os) (bs.flatMap names) := by
  induction h with
  | nil => exact .nil
  | cons hab _ ih => exact hab.append ih

/-! ### Conversions and their parts -/

section Reports

variable (P fuel) in
/-- Whatever the conversion `x` yields, the names of its result are those of the occurrences in
the parts `ps`, whose expressions have the occurrences `occ`. -/
def Reports {α : Type} (occ : Expr → List Occurrence) (ps : List Part) (x : ConvertRun α)
    (names : α → List VisitedName) : Prop :=
  ∀ a, x = .ok a → P.Named fuel (ps.flatMap (P.partOccurrences occ)) (names a)

variable {occ : Expr → List Occurrence} {α β γ δ ε ζ : Type} {ps qs rs ss ts : List Part}
  {x : ConvertRun α} {y : ConvertRun β} {z : ConvertRun γ} {w : ConvertRun δ} {v : ConvertRun ε}
  {nx : α → List VisitedName} {ny : β → List VisitedName} {nz : γ → List VisitedName}
  {nw : δ → List VisitedName} {nv : ε → List VisitedName} {names : ζ → List VisitedName}

namespace Reports

attribute [local simp] Element.name? DamlType.accept DamlExpr.accept acceptBlock acceptUpdate
  acceptInterfaceExpr visitExpr visitUpdate

lemma of_error {s : Stop DamlLfConvertError} :
    P.Reports fuel occ ps (.error s : ConvertRun α) nx := fun _ h => nomatch h

lemma ok {a : α} (h : nx a = []) : P.Reports fuel occ [] (.ok a : ConvertRun α) nx := by
  rintro _ ⟨⟩
  rw [h]
  exact .nil

/-- A conversion of parts without occurrences. -/
lemma silent (x : ConvertRun α) (hps : ps.flatMap (P.partOccurrences occ) = []) :
    P.Reports fuel occ ps x fun _ => [] := by
  intro a _
  rw [hps]
  exact .nil

lemma map (hx : P.Reports fuel occ ps x nx) (f : α → ζ) (h : ∀ a, names (f a) = nx a) :
    P.Reports fuel occ ps (f <$> x) names := by
  intro b hb
  obtain ⟨a, ha, rfl⟩ := Except.map_eq_ok.1 hb
  rw [h]
  exact hx a ha

lemma map₂ (hx : P.Reports fuel occ ps x nx) (hy : P.Reports fuel occ qs y ny) (f : α → β → ζ)
    (h : ∀ a b, names (f a b) = nx a ++ ny b) :
    P.Reports fuel occ (ps ++ qs) (f <$> x <*> y) names := by
  intro c hc
  obtain ⟨_, hfa, b, hb, rfl⟩ := Except.seq_eq_ok.1 hc
  obtain ⟨a, ha, rfl⟩ := Except.map_eq_ok.1 hfa
  rw [h, List.flatMap_append]
  exact (hx a ha).append (hy b hb)

lemma map₃ (hx : P.Reports fuel occ ps x nx) (hy : P.Reports fuel occ qs y ny)
    (hz : P.Reports fuel occ rs z nz) (f : α → β → γ → ζ)
    (h : ∀ a b c, names (f a b c) = nx a ++ ny b ++ nz c) :
    P.Reports fuel occ (ps ++ qs ++ rs) (f <$> x <*> y <*> z) names := by
  intro _ hd
  obtain ⟨_, hfab, c, hc, rfl⟩ := Except.seq_eq_ok.1 hd
  obtain ⟨_, hfa, b, hb, rfl⟩ := Except.seq_eq_ok.1 hfab
  obtain ⟨a, ha, rfl⟩ := Except.map_eq_ok.1 hfa
  rw [h, List.flatMap_append, List.flatMap_append]
  exact ((hx a ha).append (hy b hb)).append (hz c hc)

lemma map₄ (hx : P.Reports fuel occ ps x nx) (hy : P.Reports fuel occ qs y ny)
    (hz : P.Reports fuel occ rs z nz) (hw : P.Reports fuel occ ss w nw) (f : α → β → γ → δ → ζ)
    (h : ∀ a b c d, names (f a b c d) = nx a ++ ny b ++ nz c ++ nw d) :
    P.Reports fuel occ (ps ++ qs ++ rs ++ ss) (f <$> x <*> y <*> z <*> w) names := by
  intro _ he
  obtain ⟨_, hfabc, d, hd, rfl⟩ := Except.seq_eq_ok.1 he
  obtain ⟨_, hfab, c, hc, rfl⟩ := Except.seq_eq_ok.1 hfabc
  obtain ⟨_, hfa, b, hb, rfl⟩ := Except.seq_eq_ok.1 hfab
  obtain ⟨a, ha, rfl⟩ := Except.map_eq_ok.1 hfa
  rw [h, List.flatMap_append, List.flatMap_append, List.flatMap_append]
  exact (((hx a ha).append (hy b hb)).append (hz c hc)).append (hw d hd)

lemma map₅ (hx : P.Reports fuel occ ps x nx) (hy : P.Reports fuel occ qs y ny)
    (hz : P.Reports fuel occ rs z nz) (hw : P.Reports fuel occ ss w nw)
    (hv : P.Reports fuel occ ts v nv) (f : α → β → γ → δ → ε → ζ)
    (h : ∀ a b c d e, names (f a b c d e) = nx a ++ ny b ++ nz c ++ nw d ++ nv e) :
    P.Reports fuel occ (ps ++ qs ++ rs ++ ss ++ ts) (f <$> x <*> y <*> z <*> w <*> v) names := by
  intro _ hg
  obtain ⟨_, hfabcd, e, he, rfl⟩ := Except.seq_eq_ok.1 hg
  obtain ⟨_, hfabc, d, hd, rfl⟩ := Except.seq_eq_ok.1 hfabcd
  obtain ⟨_, hfab, c, hc, rfl⟩ := Except.seq_eq_ok.1 hfabc
  obtain ⟨_, hfa, b, hb, rfl⟩ := Except.seq_eq_ok.1 hfab
  obtain ⟨a, ha, rfl⟩ := Except.map_eq_ok.1 hfa
  rw [h, List.flatMap_append, List.flatMap_append, List.flatMap_append, List.flatMap_append]
  exact ((((hx a ha).append (hy b hb)).append (hz c hc)).append (hw d hd)).append (hv e he)

/-- A list of conversions. -/
lemma mapM {η : Type} {as : List η} {parts : η → List Part} {g : η → ConvertRun α}
    (h : ∀ a ∈ as, P.Reports fuel occ (parts a) (g a) nx) :
    P.Reports fuel occ (as.flatMap parts) (as.mapM g) fun bs => bs.flatMap nx := by
  intro bs hbs
  rw [List.flatMap_assoc]
  refine Named.flatMap ((Except.mapM_eq_ok.1 hbs).imp_of_mem fun a ha b _ hab => h a ha b hab)

/-- A required field. -/
lemma field {η : Type} {o : Option η} {part : η → Part} {g : η → ConvertRun α}
    (h : ∀ a, o = some a → P.Reports fuel occ [part a] (g a) nx) :
    P.Reports fuel occ [Proto.field part o] (required o g) nx := by
  rcases o with _ | a
  · exact of_error
  · exact h a rfl

/-- A required field whose parts are read in its place. -/
lemma fieldParts {η : Type} {o : Option η} {parts : η → List Part} {g : η → ConvertRun α}
    (h : ∀ a, o = some a → P.Reports fuel occ (parts a) (g a) nx) :
    P.Reports fuel occ (Proto.fieldParts parts o) (required o g) nx := by
  rcases o with _ | a
  · exact of_error
  · exact h a rfl

/-! #### Names and types -/

lemma string (i : Int) : P.Reports fuel occ [.string i] (P.string i) fun _ => [] :=
  silent _ rfl

lemma tycon (o : Option TypeConId) :
    P.Reports fuel occ [Proto.field .tycon o] (P.tycon o) fun n => [.tycon n] := by
  intro n hn
  obtain ⟨id, rfl, hid⟩ := tycon_eq_ok.1 hn
  exact .single (by simp [occurrenceNames, hid])

variable {m : Nat}

lemma convertType (hm : fuel ≤ m) (t : Ty) :
    P.Reports m occ [.type t] (P.convertType fuel t) fun d => visitedNames d.accept := by
  intro d hd
  have hd' : P.convertType m t = .ok d := ((convertType_monotone t).refines hm).eq_ok hd
  exact .single (by simp [occurrenceNames, hd'])

lemma type (hm : fuel ≤ m) (o : Option Ty) :
    P.Reports m occ [Proto.field .type o] (P.type fuel o) fun d => visitedNames d.accept :=
  field fun t _ => convertType hm t

lemma typevars (vs : List TypeVarWithKind) :
    P.Reports m occ (vs.flatMap TypeVarWithKind.parts)
      (vs.mapM (P.convertTypevarWithKind fuel)) fun _ => [] := by
  refine silent _ ?_
  simp only [List.flatMap_assoc, List.flatMap_eq_nil_iff, TypeVarWithKind.parts]
  intro v _
  cases v.kind <;> simp [partOccurrences]

lemma varWithType (hm : fuel ≤ m) (v : VarWithType) :
    P.Reports m occ v.parts (P.convertVarWithType fuel v) fun v => visitedNames v.accept :=
  (string v.varInternedStr).map₂ (type hm v.type) _ fun s d => by
    simp [DamlVarWithType.accept]

lemma types (hm : fuel ≤ m) (ts : List Ty) :
    P.Reports m occ (ts.map .type) (ts.mapM (P.convertType fuel)) fun ds =>
      ds.flatMap fun d => visitedNames d.accept := by
  rw [List.map_eq_flatMap]
  exact mapM fun t _ => convertType hm t

lemma typeCon (hm : fuel ≤ m) (o : Option TypeCon) :
    P.Reports m occ (Proto.fieldParts TypeCon.parts o) (P.typeCon fuel o)
      fun c => visitedNames c.accept :=
  fieldParts fun c _ => (tycon c.tycon).map₂ (types hm c.args) _ fun n ds => by
    simp [DamlTyCon.accept]

/-! #### Patterns, blocks and updates -/

lemma caseAltSum (s : CaseAltSum) :
    P.Reports m occ s.parts (P.convertCaseAltSum s) fun s => visitedNames s.accept := by
  cases s with
  | default => exact ok rfl
  | variant con v b =>
    exact (tycon con).map₃ (string v) (string b) _ fun n v b => by
      simp [DamlCaseAltSum.accept]
  | builtinCon code => exact (silent _ rfl).map _ fun _ => rfl
  | nil => exact ok rfl
  | cons h t => exact (string h).map₂ (string t) _ fun _ _ => rfl
  | optionalNone => exact ok rfl
  | optionalSome b => exact (string b).map _ fun _ => rfl
  | enum con c =>
    exact (tycon con).map₂ (string c) _ fun n c => by simp [DamlCaseAltSum.accept]
  | unset => exact of_error

section Inside

variable {convert : Expr → ConvertRun DamlExpr} (hm : fuel ≤ m)
  (he : ∀ e, P.Reports m occ [.expr e] (convert e) fun d => visitedNames d.accept)

include he

lemma expr (o : Option Expr) :
    P.Reports m occ [Proto.field .expr o] (required o convert) fun d => visitedNames d.accept :=
  field fun e _ => he e

lemma exprs (es : List Expr) :
    P.Reports m occ (es.map .expr) (es.mapM convert) fun ds =>
      ds.flatMap fun d => visitedNames d.accept := by
  rw [List.map_eq_flatMap]
  exact mapM fun e _ => he e

lemma fieldExprs (fs : List (FieldWithExpr Expr)) :
    P.Reports m occ (fs.flatMap FieldWithExpr.parts) (fs.mapM (P.convertFieldExpr convert))
      fun ds => ds.flatMap fun d => visitedNames d.accept :=
  mapM fun f _ => (string f.fieldInternedStr).map₂ (expr he f.expr) _ fun s d => by
    simp [DamlFieldWithExpr.accept]

lemma caseAlts (as : List (CaseAlt Expr)) :
    P.Reports m occ (as.flatMap CaseAlt.parts) (as.mapM (P.convertCaseAlt convert))
      fun ds => ds.flatMap fun d => visitedNames d.accept :=
  mapM fun a _ => (expr he a.body).map₂ (caseAltSum a.sum) _ fun d s => by
    simp [DamlCaseAlt.accept]

lemma guard (o : Option Expr) :
    P.Reports m occ (o.toList.map .expr) (convertGuard convert o) fun ds =>
      ds.toList.flatMap fun d => visitedNames d.accept := by
  rcases o with _ | e
  · exact ok rfl
  · exact (he e).map _ fun d => by simp

include hm

lemma binding (b : Binding Expr) :
    P.Reports m occ b.parts (P.convertBinding fuel convert b) fun d => visitedNames d.accept :=
  (fieldParts fun v _ => varWithType hm v).map₂ (expr he b.bound) _ fun v d => by
    simp [DamlBinding.accept]

lemma block (b : Block Expr) :
    P.Reports m occ b.parts (P.convertBlock fuel convert b) fun d =>
      visitedNames (acceptBlock d) :=
  (mapM fun b _ => binding hm he b).map₂ (expr he b.body) _ fun bs d => by
    simp

lemma update (u : Update Expr) :
    P.Reports m occ u.parts (P.convertUpdate fuel convert u) fun d =>
      visitedNames (acceptUpdate d) := by
  cases u with
  | pure ty e =>
    exact (type hm ty).map₂ (expr he e) _ fun _ _ => by
      simp
  | block b => exact (block hm he b).map _ fun _ => by simp
  | create template e =>
    exact (tycon template).map₂ (expr he e) _ fun _ _ => by
      simp
  | createInterface interface e =>
    exact (tycon interface).map₂ (expr he e) _ fun _ _ => by
      simp
  | exercise template choice cid arg =>
    exact (tycon template).map₄ (expr he cid) (expr he arg) (string choice) _ fun _ _ _ _ => by
      simp
  | exerciseInterface interface choice cid arg g =>
    exact (tycon interface).map₅ (expr he cid) (expr he arg) (string choice) (guard he g) _
      fun _ _ _ _ _ => by simp
  | exerciseByKey template choice key arg =>
    exact (tycon template).map₄ (string choice) (expr he key) (expr he arg) _ fun _ _ _ _ => by
      simp
  | fetch template cid =>
    exact (tycon template).map₂ (expr he cid) _ fun _ _ => by
      simp
  | fetchInterface interface cid =>
    exact (tycon interface).map₂ (expr he cid) _ fun _ _ => by
      simp
  | getTime => exact ok rfl
  | lookupByKey template =>
    -- The key is a placeholder, an absent value of type `Unit`, and has no names.
    exact (tycon template).map _ fun _ => by
      simp [placeholderKey]
  | fetchByKey template =>
    exact (tycon template).map _ fun _ => by
      simp [placeholderKey]
  | queryNByKey template =>
    exact (tycon template).map _ fun _ => by simp
  | embedExpr ty body =>
    exact (type hm ty).map₂ (expr he body) _ fun _ _ => by
      simp
  | tryCatch returnType tryExpr var catchExpr =>
    exact (type hm returnType).map₄ (expr he tryExpr) (string var) (expr he catchExpr) _
      fun _ _ _ _ => by simp
  | ledgerTimeLt e => exact (he e).map _ fun _ => by simp
  | unset => exact of_error

end Inside

/-! #### Expressions -/

/-- The step of the induction: what holds of the expressions inside an expression, converted on
less fuel, holds of the expression. -/
lemma convertExpr (hm : fuel ≤ m)
    (he : ∀ e, P.Reports m occ [.expr e] (P.convertExpr fuel e) fun d => visitedNames d.accept)
    (e : Expr) :
    P.Reports m occ e.parts (P.convertExpr (fuel + 1) e) fun d => visitedNames d.accept := by
  cases e with
  | varInternedStr i => exact (string i).map _ fun _ => by simp
  | val id =>
    have hval : P.Reports m occ [.value id] (.lift (P.convertValueId id)) fun n => [.value n] := by
      intro n hn
      exact .single (by simp [occurrenceNames, Run.lift_eq_ok.1 hn])
    exact hval.map _ fun _ => by simp
  | builtin code =>
    exact (silent _ rfl).map _ fun _ => by simp
  | builtinCon code =>
    exact (silent _ rfl).map _ fun _ => by simp
  | builtinLit lit =>
    refine (silent _ ?_).map _ fun _ => by simp
    cases lit <;> rfl
  | nil ty => exact (type hm ty).map _ fun _ => by simp
  | optionalNone ty => exact (type hm ty).map _ fun _ => by simp
  | typeRep ty => exact (convertType hm ty).map _ fun _ => by simp
  | recCon c fields =>
    exact (typeCon hm c).map₂ (fieldExprs he fields) _ fun _ _ => by
      simp
  | recProj c field record =>
    exact (typeCon hm c).map₃ (expr he record) (string field) _ fun _ _ _ => by
      simp
  | recUpd c field record upd =>
    exact (typeCon hm c).map₄ (expr he record) (expr he upd) (string field) _ fun _ _ _ _ => by
      simp
  | variantCon c con arg =>
    exact (typeCon hm c).map₃ (expr he arg) (string con) _ fun _ _ _ => by
      simp
  | enumCon c con =>
    exact (tycon c).map₂ (string con) _ fun _ _ => by
      simp
  | structCon fields =>
    exact (fieldExprs he fields).map _ fun _ => by
      simp
  | structProj field struct =>
    exact (expr he struct).map₂ (string field) _ fun _ _ => by
      simp
  | structUpd field struct upd =>
    exact (expr he struct).map₃ (expr he upd) (string field) _ fun _ _ _ => by
      simp
  | toAny ty e =>
    exact (type hm ty).map₂ (expr he e) _ fun _ _ => by
      simp
  | fromAny ty e =>
    exact (type hm ty).map₂ (expr he e) _ fun _ _ => by
      simp
  | app fn args =>
    exact (expr he fn).map₂ (exprs he args) _ fun _ _ => by
      simp
  | tyApp e ts =>
    exact (expr he e).map₂ (types hm ts) _ fun _ _ => by
      simp
  | abs param body =>
    exact (mapM fun v _ => varWithType hm v).map₂ (expr he body) _ fun _ _ => by
      simp
  | tyAbs param body =>
    exact (typevars param).map₂ (expr he body) _ fun _ _ => by
      simp
  | case scrut alts =>
    exact (expr he scrut).map₂ (caseAlts he alts) _ fun _ _ => by
      simp
  | letIn b => exact (block hm he b).map _ fun _ => by simp
  | cons ty front tail =>
    exact (type hm ty).map₃ (exprs he front) (expr he tail) _ fun _ _ _ => by
      simp
  | optionalSome ty value =>
    exact (type hm ty).map₂ (expr he value) _ fun _ _ => by
      simp
  | toAnyException ty e =>
    exact (type hm ty).map₂ (expr he e) _ fun _ _ => by
      simp
  | fromAnyException ty e =>
    exact (type hm ty).map₂ (expr he e) _ fun _ _ => by
      simp
  | throw returnType exceptionType e =>
    exact (type hm returnType).map₃ (type hm exceptionType) (expr he e) _ fun _ _ _ => by
      simp
  | toInterface interfaceType templateType e =>
    exact (tycon interfaceType).map₃ (tycon templateType) (expr he e) _ fun _ _ _ => by
      simp
  | fromInterface interfaceType templateType e =>
    exact (tycon interfaceType).map₃ (tycon templateType) (expr he e) _ fun _ _ _ => by
      simp
  | callInterface interfaceType method e =>
    exact (string method).map₃ (tycon interfaceType) (expr he e) _ fun _ _ _ => by
      simp
  | viewInterface interface e =>
    exact (tycon interface).map₂ (expr he e) _ fun _ _ => by
      simp
  | signatoryInterface interface e =>
    exact (tycon interface).map₂ (expr he e) _ fun _ _ => by
      simp
  | observerInterface interface e =>
    exact (tycon interface).map₂ (expr he e) _ fun _ _ => by
      simp
  | unsafeFromInterface interfaceType templateType cid e =>
    exact (tycon interfaceType).map₄ (tycon templateType) (expr he cid) (expr he e) _
      fun _ _ _ _ => by simp
  | toRequiredInterface required requiring e =>
    exact (tycon required).map₃ (tycon requiring) (expr he e) _ fun _ _ _ => by
      simp
  | fromRequiredInterface required requiring e =>
    exact (tycon required).map₃ (tycon requiring) (expr he e) _ fun _ _ _ => by
      simp
  | unsafeFromRequiredInterface required requiring cid e =>
    exact (tycon required).map₄ (tycon requiring) (expr he cid) (expr he e) _ fun _ _ _ _ => by
      simp
  | interfaceTemplateTypeRep interface e =>
    exact (tycon interface).map₂ (expr he e) _ fun _ _ => by
      simp
  | choiceController template choice contract arg =>
    exact (string choice).map₄ (tycon template) (expr he contract) (expr he arg) _
      fun _ _ _ _ => by simp
  | choiceObserver template choice contract arg =>
    exact (string choice).map₄ (tycon template) (expr he contract) (expr he arg) _
      fun _ _ _ _ => by simp
  | update u => exact (update hm he u).map _ fun _ => by simp
  -- the only reference to the table of expressions: its entry is converted on the smaller fuel
  | internedExpr i =>
    intro d hd
    simp only [DamlPackageTables.convertExpr, Except.bind_eq_ok, Run.lift_eq_ok,
      tableGet_eq_ok_iff] at hd
    obtain ⟨e, hentry, hd⟩ := hd
    simpa [Expr.parts, partOccurrences, hentry] using he e d hd
  | experimental => exact of_error
  | unset => exact of_error

end Reports

end Reports

/-- The names that visiting a converted expression reports are exactly those of the occurrences
in the expression on the wire: none is dropped, repeated or made up. -/
theorem visitedNames_convertExpr {m : Nat} {e : Expr} {d : DamlExpr}
    (h : P.convertExpr fuel e = .ok d) (hm : fuel ≤ m) :
    List.flatten <$> (P.exprOccurrences m e).mapM (P.occurrenceNames m) =
      .ok (visitedNames d.accept) := by
  have hreports : ∀ {fuel k : Nat} (e : Expr), fuel ≤ k → k ≤ m →
      P.Reports m (P.exprOccurrences k) [.expr e] (P.convertExpr fuel e)
        fun d => visitedNames d.accept := by
    intro fuel
    induction fuel with
    | zero => exact fun _ _ _ => Reports.of_error
    | succ fuel ih =>
      intro k e hk hkm
      obtain ⟨k, rfl⟩ : ∃ j, k = j + 1 := ⟨k - 1, by omega⟩
      intro d hd
      have hstep := Reports.convertExpr (by omega)
        (fun e => ih e (Nat.le_of_succ_le_succ hk) (by omega)) e d hd
      simpa [partOccurrences, exprOccurrences] using hstep
  have hd := hreports e hm (Nat.le_refl m) d h
  rwa [List.flatMap_cons, List.flatMap_nil, List.append_nil] at hd

/-- `case M:T of M:T(M) -> nil @M:T`, with a value and two references to a data type in it. -/
theorem visitedNames_convertExpr_case :
    List.flatten <$> (smallTables.exprOccurrences 3
        (.case (some (.val ⟨some ⟨some .selfPackageId, 0⟩, 1⟩))
          [⟨.variant (some smallTyconId) 0 1,
            some (.nil (some (.con (some smallTyconId) [])))⟩])).mapM
        (smallTables.occurrenceNames 3) =
      .ok (visitedNames (DamlExpr.case (.val (.localValue ⟨"T", "pkg", "small", ["M"]⟩))
        [⟨.nil (.tyCon smallTyconName []), .variant smallTyconName "M" "T"⟩]).accept) := by
  have h : smallTables.convertExpr 3
      (.case (some (.val ⟨some ⟨some .selfPackageId, 0⟩, 1⟩))
        [⟨.variant (some smallTyconId) 0 1, some (.nil (some (.con (some smallTyconId) [])))⟩]) =
      .ok (.case (.val (.localValue ⟨"T", "pkg", "small", ["M"]⟩))
        [⟨.nil (.tyCon smallTyconName []), .variant smallTyconName "M" "T"⟩]) := rfl
  exact visitedNames_convertExpr h (Nat.le_refl 3)

end DamlPackageTables

end DamlBindings.Lf
