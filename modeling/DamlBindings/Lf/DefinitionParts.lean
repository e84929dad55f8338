import DamlBindings.Lf.EnteredNames
import DamlBindings.Lf.KeptDefinitions

/-!
# The references of the definitions of a package

The types and expressions in the definitions of a module, with the references in them.  A visit of
the converted package walks the definitions that the tree keeps.  It leaves out what a template
implements.
-/

namespace DamlBindings.Lf

open Proto PathTree DamlModuleBody

/-! ### The parts of a definition -/

namespace Proto

def DefDataType.parts (d : DefDataType) : List Part :=
  match d.dataCons with
  | .record fields => fields.flatMap FieldWithType.parts
  | .variant fields => fields.flatMap FieldWithType.parts
  | _ => []

def DefTypeSyn.parts (s : DefTypeSyn) : List Part := [field .type s.type]

def TemplateChoice.parts (c : TemplateChoice) : List Part :=
  fieldParts VarWithType.parts c.argBinder ++
    [field .type c.retType, field .expr c.update, field .expr c.controllers,
      field .expr c.observers] ++
    c.authorizers.toList.map .expr

def DefKey.parts (k : DefKey) : List Part :=
  [field .type k.type, field .expr k.maintainers, field .expr k.keyExpr]

/-- The parts of a template apart from what it implements. -/
def DefTemplate.ownParts (t : DefTemplate) : List Part :=
  t.choices.flatMap TemplateChoice.parts ++ t.precond.toList.map .expr ++
    [field .expr t.signatories, field .expr t.observers] ++ t.key.toList.flatMap DefKey.parts

def InterfaceInstanceBody.parts (b : InterfaceInstanceBody) : List Part :=
  b.methods.map (fun m => field .expr m.value) ++ [field .expr b.view]

def Implements.parts (i : Implements) : List Part :=
  field .tycon i.interface :: fieldParts InterfaceInstanceBody.parts i.body

def DefTemplate.parts (t : DefTemplate) : List Part :=
  t.ownParts ++ t.implements.flatMap Implements.parts

def DefInterface.parts (i : DefInterface) : List Part :=
  i.methods.map (fun m => field .type m.type) ++ i.choices.flatMap TemplateChoice.parts ++
    [field .type i.view] ++ i.requires.map .tycon

def DefException.parts (e : DefException) : List Part := [field .expr e.message]

def NameWithType.parts (n : NameWithType) : List Part := [field .type n.type]

def DefValue.parts (v : DefValue) : List Part :=
  fieldParts NameWithType.parts v.nameWithType ++ [field .expr v.expr]

/-- The parts of a data type, and those of the template that a record becomes. -/
def DefDataType.walkedParts (templates : List (Int × DefTemplate)) (d : DefDataType) : List Part :=
  match d.dataCons with
  | .record _ =>
    d.parts ++ (templates.lookup d.nameInternedDname).toList.flatMap DefTemplate.ownParts
  | _ => d.parts

end Proto

namespace DamlPackageTables

variable (P : DamlPackageTables)

/-- The occurrences in the parts of a definition. -/
def occurrences (m : Nat) (ps : List Part) : List Occurrence :=
  ps.flatMap (P.partOccurrences (P.exprOccurrences m))

variable {P} {fuel m : Nat} {path : List String}

lemma occurrences_flatMap {α : Type} (as : List α) (parts : α → List Part) :
    P.occurrences m (as.flatMap parts) = as.flatMap fun a => P.occurrences m (parts a) :=
  List.flatMap_assoc

lemma Named.mem_iff {os : List Occurrence} {names : List VisitedName} (h : P.Named m os names)
    {x : VisitedName} :
    x ∈ names ↔ ∃ o ∈ os, ∃ ns, P.occurrenceNames m o = .ok ns ∧ x ∈ ns := by
  obtain ⟨nss, hnss, rfl⟩ := named_iff.1 h
  rw [List.mem_flatten]
  constructor
  · rintro ⟨ns, hns, hx⟩
    obtain ⟨o, ho, hnames⟩ := hnss.exists_left hns
    exact ⟨o, ho, ns, hnames, hx⟩
  · rintro ⟨o, ho, ns, hnames, hx⟩
    obtain ⟨ns', hns', hnames'⟩ := hnss.exists_right ho
    cases hnames.symm.trans hnames'
    exact ⟨ns, hns', hx⟩

/-! ### What a converted definition shows -/

lemma visitedNames_typeParams (vs : List DamlTypeVarWithKind) :
    (vs.flatMap fun _ => ([] : List VisitedName)) = [] :=
  List.flatMap_eq_nil_iff.2 fun _ _ => rfl

section Converted

variable (hm : fuel ≤ m)

include hm

lemma named_type {o : Option Ty} {d : DamlType} (h : P.type fuel o = .ok d) :
    P.Named m (P.occurrences m [field .type o]) (visitedNames d.accept) :=
  Reports.type hm o d h

lemma named_convertExpr {e : Expr} {d : DamlExpr} (h : P.convertExpr fuel e = .ok d) :
    P.Named m (P.occurrences m [.expr e]) (visitedNames d.accept) := by
  have hnames : P.Named m (P.exprOccurrences m e) (visitedNames d.accept) :=
    visitedNames_convertExpr h hm
  simpa [occurrences, partOccurrences] using hnames

lemma named_expr {o : Option Expr} {d : DamlExpr} (h : P.expr fuel o = .ok d) :
    P.Named m (P.occurrences m [field .expr o]) (visitedNames d.accept) := by
  obtain ⟨e, rfl, he⟩ := required_eq_ok.1 h
  exact named_convertExpr hm he

lemma named_transpose {o : Option Expr} {o' : Option DamlExpr}
    (h : transpose (P.convertExpr fuel) o = .ok o') :
    P.Named m (P.occurrences m (o.toList.map .expr))
      (o'.toList.flatMap fun d => visitedNames d.accept) := by
  rcases o with _ | e
  · cases h
    exact .nil
  · obtain ⟨d, hd, rfl⟩ := Except.map_eq_ok.1 h
    simpa using named_convertExpr hm hd

lemma named_convertField {f : FieldWithType Ty} {d : DamlField DamlType}
    (h : P.convertField fuel f = .ok d) :
    P.Named m (P.occurrences m f.parts) (visitedNames d.accept) := by
  simp only [convertField, convertFieldWith, Except.seq_eq_ok, Except.map_eq_ok] at h
  obtain ⟨_, ⟨s, -, rfl⟩, t, ht, rfl⟩ := h
  simpa [occurrences, FieldWithType.parts, partOccurrences, DamlField.accept, Element.name?]
    using named_type hm ht

omit hm in
lemma named_mapM {α β : Type} {as : List α} {bs : List β} {parts : α → List Part}
    {g : α → ConvertRun β} {names : β → List VisitedName} (h : as.mapM g = .ok bs)
    (hg : ∀ a b, g a = .ok b → P.Named m (P.occurrences m (parts a)) (names b)) :
    P.Named m (P.occurrences m (as.flatMap parts)) (bs.flatMap names) := by
  rw [occurrences_flatMap]
  exact .flatMap ((Except.mapM_eq_ok.1 h).imp hg)

lemma named_convertChoice {c : TemplateChoice} {d : DamlChoice}
    (h : P.convertChoice fuel path c = .ok d) :
    P.Named m (P.occurrences m c.parts) (visitedNames d.accept) := by
  unfold convertChoice at h
  split_ifs at h with hauthorizers
  simp only [Except.seq_eq_ok, Except.map_eq_ok, required_eq_ok] at h
  obtain ⟨_, ⟨_, ⟨_, ⟨_, ⟨_, ⟨_, ⟨_, -, rfl⟩, _, -, rfl⟩, argField, ⟨v, hv, harg⟩, rfl⟩, returnType,
    hreturn, rfl⟩, update, hupdate, rfl⟩, controllers, hcontrollers, rfl⟩, observers, hobservers,
    rfl⟩ := h
  simp only [convertArgBinder, Except.seq_eq_ok, Except.map_eq_ok] at harg
  obtain ⟨_, ⟨s, -, rfl⟩, ty, hty, rfl⟩ := harg
  have hnone : c.authorizers = none := by simpa using hauthorizers
  have hnames := (((named_type hm hty).append (named_type hm hreturn)).append
    (named_expr hm hupdate)).append ((named_expr hm hcontrollers).append (named_expr hm hobservers))
  simpa [occurrences, TemplateChoice.parts, VarWithType.parts, hv, hnone, partOccurrences,
    DamlChoice.accept, DamlField.accept, Element.name?, List.append_assoc] using hnames

lemma named_convertDefKey {k : DefKey} {d : DamlDefKey} (h : P.convertDefKey fuel k = .ok d) :
    P.Named m (P.occurrences m k.parts) (visitedNames d.accept) := by
  simp only [convertDefKey, Except.seq_eq_ok, Except.map_eq_ok] at h
  obtain ⟨_, ⟨_, ⟨ty, hty, rfl⟩, maintainers, hmaintainers, rfl⟩, keyExpr, hkeyExpr, rfl⟩ := h
  have hnames := ((named_type hm hty).append (named_expr hm hmaintainers)).append
    (named_expr hm hkeyExpr)
  simpa [occurrences, DefKey.parts, DamlDefKey.accept, Element.name?, List.append_assoc]
    using hnames

/-- A template shows its fields and its own parts, and nothing of what it implements. -/
lemma named_buildTemplate {t : DefTemplate} {name : String} {fields : List (DamlField DamlType)}
    {serializable : Bool} {d : DamlTemplate} {ps : List Part}
    (hfields : P.Named m (P.occurrences m ps) (fields.flatMap fun f => visitedNames f.accept))
    (h : P.buildTemplate fuel t name path fields serializable = .ok d) :
    P.Named m (P.occurrences m (ps ++ t.ownParts)) (visitedNames d.accept) := by
  simp only [buildTemplate, Except.seq_eq_ok, Except.map_eq_ok] at h
  obtain ⟨_, ⟨_, ⟨_, ⟨_, ⟨_, ⟨_, ⟨_, -, rfl⟩, choices, hchoices, rfl⟩, key, hkey, rfl⟩, _, -, rfl⟩,
    precond, hprecond, rfl⟩, signatories, hsignatories, rfl⟩, observers, hobservers, rfl⟩ := h
  have hkeyNames : P.Named m (P.occurrences m (t.key.toList.flatMap DefKey.parts))
      (key.toList.flatMap fun k => visitedNames k.accept) := by
    rcases hk : t.key with _ | k <;> rw [hk] at hkey
    · cases hkey
      exact .nil
    · obtain ⟨k', hk', rfl⟩ := Except.map_eq_ok.1 hkey
      simpa using named_convertDefKey hm hk'
  have hnames := hfields.append ((((named_mapM hchoices fun _ _ => named_convertChoice hm).append
    (named_transpose hm hprecond)).append ((named_expr hm hsignatories).append
    (named_expr hm hobservers))).append hkeyNames)
  simpa [occurrences, DefTemplate.ownParts, DamlTemplate.accept, Element.name?,
    agreementPlaceholder, DamlExpr.accept, List.append_assoc] using hnames

lemma named_buildDataType {templates : List (Int × DefTemplate)} {name : String} {d : DefDataType}
    {x : DamlData} (h : P.buildDataType fuel templates path name d = .ok (some x)) :
    P.Named m (P.occurrences m (d.walkedParts templates)) (visitedNames x.accept) := by
  have hfields : ∀ {fs : List (FieldWithType Ty)} {ds : List (DamlField DamlType)},
      fs.mapM (P.convertField fuel) = .ok ds →
      P.Named m (P.occurrences m (fs.flatMap FieldWithType.parts))
        (ds.flatMap fun f => visitedNames f.accept) :=
    fun hds => named_mapM hds fun _ _ => named_convertField hm
  unfold buildDataType at h
  obtain ⟨typeParams, -, h⟩ := Except.bind_eq_ok.1 h
  rcases hcons : d.dataCons with fields | fields | constructors | _ | _ <;> rw [hcons] at h
  · obtain ⟨damlFields, hds, h⟩ := Except.bind_eq_ok.1 h
    -- a record with a template of its name becomes the template
    rcases hlookup : templates.lookup d.nameInternedDname with _ | template <;> rw [hlookup] at h
    · cases h
      simpa [DefDataType.walkedParts, DefDataType.parts, hcons, hlookup, DamlData.accept,
        DamlRecord.accept, Element.name?, visitedNames_typeParams] using hfields hds
    · obtain ⟨t, ht, heq⟩ := Except.map_eq_ok.1 h
      cases heq
      simpa [DefDataType.walkedParts, DefDataType.parts, hcons, hlookup, DamlData.accept,
        Element.name?] using named_buildTemplate hm (hfields hds) ht
  · obtain ⟨damlFields, hds, h⟩ := Except.bind_eq_ok.1 h
    cases h
    simpa [DefDataType.walkedParts, DefDataType.parts, hcons, DamlData.accept, DamlVariant.accept,
      Element.name?, visitedNames_typeParams] using hfields hds
  · obtain ⟨names, -, h⟩ := Except.bind_eq_ok.1 h
    cases h
    simpa [DefDataType.walkedParts, DefDataType.parts, hcons, DamlData.accept, DamlEnum.accept,
      Element.name?, visitedNames_typeParams, occurrences] using (Named.nil : P.Named m [] [])
  · cases h
  · cases h

lemma named_buildSynonym {s : DefTypeSyn} {d : DamlDefTypeSyn}
    (h : P.buildSynonym fuel path s = .ok d) :
    P.Named m (P.occurrences m s.parts) (visitedNames d.accept) := by
  simp only [buildSynonym, Except.seq_eq_ok, Except.map_eq_ok] at h
  obtain ⟨_, ⟨_, ⟨segments, -, rfl⟩, params, -, rfl⟩, ty, hty, rfl⟩ := h
  simpa [DefTypeSyn.parts, DamlDefTypeSyn.accept, Element.name?, visitedNames_typeParams]
    using named_type hm hty

lemma named_convertMethod {i : InterfaceMethod} {d : DamlInterfaceMethod}
    (h : P.convertMethod fuel i = .ok d) :
    P.Named m (P.occurrences m [field .type i.type]) (visitedNames d.accept) := by
  simp only [convertMethod, Except.seq_eq_ok, Except.map_eq_ok] at h
  obtain ⟨_, ⟨s, -, rfl⟩, ty, hty, rfl⟩ := h
  simpa [DamlInterfaceMethod.accept, Element.name?] using named_type hm hty

lemma named_convertInterface {i : DefInterface} {d : DamlInterface}
    (h : P.convertInterface fuel path i = .ok d) :
    P.Named m (P.occurrences m i.parts) (visitedNames d.accept) := by
  simp only [convertInterface, Except.bind_eq_ok, Except.seq_eq_ok, Except.map_eq_ok] at h
  obtain ⟨_, -, _, ⟨_, ⟨_, ⟨_, ⟨_, -, rfl⟩, methods, hmethods, rfl⟩, choices, hchoices, rfl⟩, view,
    hview, rfl⟩, requires, hrequires, rfl⟩ := h
  have hrequiresNames : P.Named m (P.occurrences m (i.requires.map .tycon))
      (requires.map VisitedName.tycon) := by
    rw [List.map_eq_flatMap, List.map_eq_flatMap]
    refine named_mapM hrequires fun r n hn => ?_
    exact Reports.tycon (some r) n hn
  have hmethodNames : P.Named m (P.occurrences m (i.methods.flatMap fun i => [field .type i.type]))
      (methods.flatMap fun d => visitedNames d.accept) :=
    named_mapM hmethods fun _ _ => named_convertMethod hm
  have hchoiceNames := named_mapM hchoices fun _ _ => named_convertChoice hm
  have hnames := ((hmethodNames.append hchoiceNames).append (named_type hm hview)).append
    hrequiresNames
  simpa [occurrences, DefInterface.parts, DamlInterface.accept, Element.name?, List.append_assoc,
    List.map_eq_flatMap] using hnames

lemma named_convertException {e : DefException} {d : DamlException}
    (h : P.convertException fuel path e = .ok d) :
    P.Named m (P.occurrences m e.parts) (visitedNames d.accept) := by
  simp only [convertException, Except.bind_eq_ok, Except.map_eq_ok] at h
  obtain ⟨_, -, message, hmessage, rfl⟩ := h
  simpa [DefException.parts, DamlException.accept, Element.name?] using named_expr hm hmessage

lemma named_convertDefValue {v : DefValue} {d : DamlDefValue}
    (h : P.convertDefValue fuel v = .ok d) :
    P.Named m (P.occurrences m v.parts) (visitedNames d.accept) := by
  simp only [convertDefValue, Except.seq_eq_ok, Except.map_eq_ok, required_eq_ok] at h
  obtain ⟨_, ⟨_, ⟨n, hn, hnameWithType⟩, rfl⟩, e, he, rfl⟩ := h
  simp only [convertNameWithType, Except.seq_eq_ok, Except.map_eq_ok] at hnameWithType
  obtain ⟨_, ⟨segments, -, rfl⟩, ty, hty, rfl⟩ := hnameWithType
  have hnames := (named_type hm hty).append (named_expr hm he)
  simpa [occurrences, DefValue.parts, NameWithType.parts, hn, DamlDefValue.accept, Element.name?]
    using hnames

end Converted

end DamlPackageTables

end DamlBindings.Lf
