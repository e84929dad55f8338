import DamlBindings.Codegen.Renders

/-!
# Places in the generated code

A definition is emitted in the module of the generated code that has the names of its package and
of the modules on the way to it, and under its own name.
-/

namespace DamlBindings.Codegen

open Lf PathTree

/-- A definition in the generated code: the path of its module there, the path of the module that it
comes from, the definition and its tokens. -/
structure PlacedTokens where
  rustPath : List String
  path : List String
  item : RenderItem
  tokens : ItemTokens

mutual

/-- The definitions in a module, with the names of the modules on the way to them. -/
def RenderedMod.placed : RenderedMod → List PlacedTokens
  | .mod path name items children =>
    items.map (fun i => ⟨[name], path, i.1, i.2⟩) ++
      (placedOf children).map fun x => { x with rustPath := name :: x.rustPath }
termination_by structural m => m

def placedOf : List RenderedMod → List PlacedTokens
  | [] => []
  | m :: ms => m.placed ++ placedOf ms
termination_by structural ms => ms

end

/-- The name that a definition is emitted under. -/
def ItemTokens.ident : ItemTokens → String
  | .record t => t.struct.name
  | .variant t => t.enumTokens.name
  | .enum t => t.enumTokens.name
  | .template t => t.record.struct.name
  | .interface t => t.traitName

/-- The name of a definition in Daml. -/
def RenderItem.name : RenderItem → String
  | .data d => d.name
  | .interface i => i.name

section Places

variable {N : Naming} {ctx : RenderContext} {matcher : ModuleMatcher}

/-- A definition is emitted under its name, escaped. -/
lemma ident_of_quoteItem {i : RenderItem} {tokens : ItemTokens}
    (h : quoteItem N ctx i = .ok tokens) : tokens.ident = escapeIdentifier i.name := by
  have hident : ∀ {name ident : String}, quoteEscapedIdent N name = .ok ident →
      ident = escapeIdentifier name := fun h => (quoteEscapedIdent_eq_ok.1 h).2.symm
  cases i with
  | data d =>
    cases d with
    | record r =>
      obtain ⟨t, ht, rfl⟩ := Except.map_eq_ok.1 h
      exact hident (quotedRecord_of_ok ht).struct.name
    | variant v =>
      obtain ⟨t, ht, rfl⟩ := Except.map_eq_ok.1 h
      exact hident (quotedVariant_of_ok ht).enumTokens.name
    | enum e =>
      obtain ⟨t, ht, rfl⟩ := Except.map_eq_ok.1 h
      exact hident (quotedDamlEnum_of_ok ht).enumTokens.name
    | template t =>
      obtain ⟨t, ht, rfl⟩ := Except.map_eq_ok.1 h
      exact hident (record_of_quoteDamlTemplate ht).struct.name
  | interface i =>
    obtain ⟨t, ht, rfl⟩ := Except.map_eq_ok.1 h
    obtain ⟨ident, hname, ht⟩ := Except.bind_eq_ok.1 ht
    cases ht
    exact hident hname

lemma mem_placedOf_append {ms ms' : List RenderedMod} {x : PlacedTokens} :
    x ∈ placedOf (ms ++ ms') ↔ x ∈ placedOf ms ∨ x ∈ placedOf ms' := by
  induction ms with
  | nil => simp [placedOf]
  | cons m ms ih =>
    show x ∈ m.placed ++ placedOf (ms ++ ms') ↔ x ∈ m.placed ++ placedOf ms ∨ _
    rw [List.mem_append, List.mem_append, ih, or_assoc]

/-- The tokens of a list of modules are those of its parts. -/
lemma renderMods_append_eq_ok {ts ts' : List ModTokens} {ms : List RenderedMod} :
    renderMods N ctx (ts ++ ts') = .ok ms ↔ ∃ ms₁ ms₂, renderMods N ctx ts = .ok ms₁ ∧
      renderMods N ctx ts' = .ok ms₂ ∧ ms₁ ++ ms₂ = ms := by
  induction ts generalizing ms with
  | nil =>
    constructor
    · intro h
      exact ⟨[], ms, rfl, h, rfl⟩
    · rintro ⟨ms₁, ms₂, h₁, h₂, rfl⟩
      cases h₁
      exact h₂
  | cons t ts ih =>
    have hcons : ∀ {ts ms}, renderMods N ctx (t :: ts) = .ok ms ↔ ∃ m, renderMod N ctx t = .ok m ∧
        ∃ ms', renderMods N ctx ts = .ok ms' ∧ m :: ms' = ms := by
      intro ts ms
      exact Except.bind_eq_ok.trans (exists_congr fun m => and_congr_right fun _ =>
        Except.bind_eq_ok.trans
          (exists_congr fun ms' => and_congr_right fun _ => Except.pure_eq_ok))
    rw [List.cons_append, hcons]
    constructor
    · rintro ⟨m, hm, ms', hms', rfl⟩
      obtain ⟨ms₁, ms₂, h₁, h₂, rfl⟩ := ih.1 hms'
      exact ⟨m :: ms₁, ms₂, hcons.2 ⟨m, hm, ms₁, h₁, rfl⟩, h₂, rfl⟩
    · rintro ⟨ms₀, ms₂, h₀, h₂, rfl⟩
      obtain ⟨m, hm, ms₁, h₁, rfl⟩ := hcons.1 h₀
      exact ⟨m, hm, ms₁ ++ ms₂, ih.2 ⟨ms₁, ms₂, h₁, h₂, rfl⟩, rfl⟩

/-- What is in the tokens of a sequence is in those of one of its parts. -/
lemma mem_placedOf_flatMap {α : Type} {as : List α} {f : α → List ModTokens} {ms : List RenderedMod}
    (h : renderMods N ctx (as.flatMap f) = .ok ms) {x : PlacedTokens} :
    x ∈ placedOf ms ↔ ∃ a ∈ as, ∃ ms', renderMods N ctx (f a) = .ok ms' ∧ x ∈ placedOf ms' := by
  induction as generalizing ms with
  | nil =>
    cases h
    simp [placedOf]
  | cons a as ih =>
    rw [List.flatMap_cons] at h
    obtain ⟨ms₁, ms₂, h₁, h₂, rfl⟩ := renderMods_append_eq_ok.1 h
    rw [mem_placedOf_append, ih h₂, List.exists_mem_cons_iff]
    refine or_congr_left ⟨fun hx => ⟨ms₁, h₁, hx⟩, ?_⟩
    rintro ⟨ms', h', hx⟩
    cases h₁.symm.trans h'
    exact hx

lemma quoteChildren_eq (childModules : List (String × DamlModule)) (inc : Bool) :
    quoteChildren matcher .full childModules inc = childModules.flatMap fun c =>
      (quoteModuleTreeInner matcher .full c.2 (localName c.2.val) inc).toList := by
  induction childModules with
  | nil => rfl
  | cons c childModules ih => rw [List.flatMap_cons, ← ih]; rfl

lemma mem_placedOf_quoteChildren {childModules : List (String × DamlModule)} {inc : Bool}
    {ms : List RenderedMod}
    (h : renderMods N ctx (quoteChildren matcher .full childModules inc) = .ok ms)
    {x : PlacedTokens} :
    x ∈ placedOf ms ↔ ∃ c ∈ childModules, ∃ ms', renderMods N ctx
      (quoteModuleTreeInner matcher .full c.2 (localName c.2.val) inc).toList = .ok ms' ∧
        x ∈ placedOf ms' := by
  rw [quoteChildren_eq] at h
  exact mem_placedOf_flatMap h

/-- Every child renders if the child modules do. -/
lemma renders_child {childModules : List (String × DamlModule)} {inc : Bool} {ms : List RenderedMod}
    (h : renderMods N ctx (quoteChildren matcher .full childModules inc) = .ok ms)
    {c : String × DamlModule} (hc : c ∈ childModules) :
    ∃ ms', renderMods N ctx
      (quoteModuleTreeInner matcher .full c.2 (localName c.2.val) inc).toList = .ok ms' :=
  renders_quoteChildren.1 ⟨ms, h⟩ c hc

/-- The module under the key `k` has the name `k`. -/
lemma localName_of_placed {m : DamlModule} (h : Placed m) {k : String} {c : DamlModule}
    (hc : (k, c) ∈ m.childModules) : localName c.val = k := by
  rw [localName, h.path_eq hc, List.getLast?_concat]
  rfl

/-- The definition `x` is emitted for the module at a path, in a package with that name. -/
structure EmittedFor (N : Naming) (ctx : RenderContext) (name : String) (p : List String)
    (b : DamlModuleBody) (x : PlacedTokens) : Prop where
  path : x.path = b.path
  item : x.item ∈ quotedItems .full b
  tokens : quoteItem N ctx x.item = .ok x.tokens
  rustPath : x.rustPath = (name :: p).map (toRustIdentifier N)

/-- The definitions of the included modules are emitted, in the modules of their paths. -/
lemma mem_placedOf_quoteModuleTreeInner {m : DamlModule} (h : Placed m) {name : String} {inc : Bool}
    {ms : List RenderedMod}
    (hms : renderMods N ctx (quoteModuleTreeInner matcher .full m name inc).toList = .ok ms)
    {x : PlacedTokens} :
    x ∈ placedOf ms ↔ ∃ p b, valAt m p = some b ∧
      (way p m).foldl (childAncestorIncluded matcher) inc = true ∧ EmittedFor N ctx name p b x := by
  induction m using PathTree.induction generalizing name inc ms x with
  | node body childModules ih =>
    have hsome : (quoteModuleTreeInner matcher .full (.node body childModules) name inc).isSome =
        true ↔ _ := isSome_quoteModuleTreeInner (keyed_of_placed h)
    rcases htokens : quoteModuleTreeInner matcher .full (.node body childModules) name inc
      with _ | tokens
    · -- nothing is included
      rw [htokens] at hms hsome
      cases hms
      refine iff_of_false (List.not_mem_nil) ?_
      rintro ⟨p, b, hb, hp, -⟩
      exact absurd (hsome.2 ⟨p, b, hb, hp⟩) (by simp)
    set inc' := childAncestorIncluded matcher inc body with hinc
    have hmod : tokens = .mod body.path name (moduleTokens matcher .full inc body)
        (quoteChildren matcher .full childModules inc') := by
      have hdef : (if !renderData matcher inc body &&
          (quoteChildren matcher .full childModules inc').isEmpty then none
          else some (ModTokens.mod body.path name (moduleTokens matcher .full inc body)
            (quoteChildren matcher .full childModules inc'))) = some tokens := htokens
      split_ifs at hdef
      exact (Option.some.inj hdef).symm
    rw [htokens, hmod] at hms
    obtain ⟨rendered, hrendered, hms⟩ := Except.bind_eq_ok.1 hms
    obtain ⟨_, hnil, hms⟩ := Except.bind_eq_ok.1 hms
    cases hnil
    cases hms
    obtain ⟨children, hchildren, hrendered⟩ := Except.bind_eq_ok.1 hrendered
    obtain ⟨items, hitems, hrendered⟩ := Except.bind_eq_ok.1 hrendered
    obtain ⟨ident, hident, hrendered⟩ := Except.bind_eq_ok.1 hrendered
    cases hrendered
    obtain ⟨-, rfl⟩ := quoteEscapedIdent_eq_ok.1 hident
    rw [moduleTokens_eq, ← hinc] at hitems
    have hitems := Except.mapM_eq_ok.1 hitems
    show x ∈ (items.map _ ++ (placedOf children).map _) ++ [] ↔ _
    rw [List.append_nil, List.mem_append]
    constructor
    · rintro (hx | hx)
      · obtain ⟨i, hi, rfl⟩ := List.mem_map.1 hx
        obtain ⟨item, hitem, hquote⟩ := hitems.exists_left hi
        obtain ⟨tokens, htokens, rfl⟩ := Except.map_eq_ok.1 hquote
        split_ifs at hitem with hself
        · exact ⟨[], body, rfl, hself, rfl, hitem, htokens, rfl⟩
        · cases hitem
      · obtain ⟨y, hy, rfl⟩ := List.mem_map.1 hx
        obtain ⟨⟨k, c⟩, hc, ms', hms', hy⟩ := (mem_placedOf_quoteChildren hchildren).1 hy
        obtain ⟨p, b, hb, hp, hemitted⟩ := (ih _ hc (h.child hc) hms').1 hy
        have hlookup := (keyed_of_placed h).lookup_iff.2 hc
        refine ⟨k :: p, b, valAt_cons_eq_some.2 ⟨c, hlookup, hb⟩, ?_, hemitted.path, hemitted.item,
          hemitted.tokens, ?_⟩
        · rwa [way_cons_of_lookup hlookup, List.foldl_cons]
        · have hpath := hemitted.rustPath
          rw [localName_of_placed h hc] at hpath
          rw [hpath]
          rfl
    · rintro ⟨_ | ⟨k, p⟩, b, hb, hp, hemitted⟩
      · cases hb
        have hself : inc' = true := hp
        rw [hself, if_pos rfl] at hitems
        obtain ⟨i, hi, hquote⟩ := hitems.exists_right hemitted.item
        rw [hemitted.tokens] at hquote
        cases hquote
        refine .inl (List.mem_map.2 ⟨_, hi, ?_⟩)
        obtain ⟨rustPath, path, item, tokens⟩ := x
        obtain ⟨rfl, -, -, rfl⟩ := hemitted
        rfl
      · obtain ⟨c, hlookup, hb⟩ := valAt_cons_eq_some.1 hb
        rw [way_cons_of_lookup hlookup, List.foldl_cons] at hp
        have hc := (keyed_of_placed h).lookup_iff.1 hlookup
        obtain ⟨ms', hms'⟩ := renders_child hchildren hc
        refine .inr
          (List.mem_map.2 ⟨{ x with rustPath := (k :: p).map (toRustIdentifier N) }, ?_, ?_⟩)
        · refine (mem_placedOf_quoteChildren hchildren).2 ⟨_, hc, ms', hms', ?_⟩
          refine (ih _ hc (h.child hc) hms').2 ⟨p, b, hb, hp, hemitted.path, hemitted.item,
            hemitted.tokens, ?_⟩
          rw [localName_of_placed h hc]
        · obtain ⟨rustPath, path, item, tokens⟩ := x
          obtain ⟨-, -, -, rfl⟩ := hemitted
          rfl

/-- The definitions of the included modules of an archive are emitted, in the modules of their
packages and paths. -/
theorem mem_placedOf_quoteArchive {A : DamlArchive} (h : A.WellPlaced) {ms : List RenderedMod}
    (hms : quoteArchive N matcher A = .ok ms) {x : PlacedTokens} :
    x ∈ placedOf ms ↔ ∃ e ∈ A.packages, ∃ p b, valAt e.2.rootModule p = some b ∧
      Included matcher e.2.rootModule p ∧
        EmittedFor N ⟨A, .higherKindedType⟩ e.2.name p b x := by
  set ctx : RenderContext := ⟨A, .higherKindedType⟩
  have hmapM : ∀ ts, renderMods N ctx ts = ts.mapM (renderMod N ctx) := by
    intro ts
    induction ts with
    | nil => rfl
    | cons t ts ih =>
      rw [List.mapM_cons, ← ih]
      rfl
  rw [quoteArchive, ← hmapM] at hms
  rw [mem_placedOf_flatMap hms]
  refine exists_congr fun e => and_congr_right fun he => ?_
  have hpackage : ∀ {ms'}, renderMods N ctx (quotePackage matcher .full e.2).toList = .ok ms' →
      (x ∈ placedOf ms' ↔ ∃ p b, valAt e.2.rootModule p = some b ∧
        Included matcher e.2.rootModule p ∧ EmittedFor N ctx e.2.name p b x) := by
    intro ms' hms'
    refine (mem_placedOf_quoteModuleTreeInner (h.rootModules e he) hms').trans ?_
    refine exists_congr fun p => exists_congr fun b => and_congr_right fun _ => ?_
    exact and_congr_left fun _ => foldl_childAncestorIncluded _ p
  have hrenders : Renders (renderMods N ctx (quotePackage matcher .full e.2).toList) := by
    have hall : Renders (renderMods N ctx
        (A.packages.flatMap fun e => (quotePackage matcher .full e.2).toList)) := ⟨ms, hms⟩
    rw [hmapM, renders_mapM] at hall ⊢
    exact fun t ht => hall t (List.mem_flatMap.2 ⟨e, he, ht⟩)
  obtain ⟨ms', hms'⟩ := hrenders
  rw [← hpackage hms']
  constructor
  · rintro ⟨ms'', hms'', hx⟩
    cases hms'.symm.trans hms''
    exact hx
  · exact fun hx => ⟨ms', hms', hx⟩

end Places

end DamlBindings.Codegen
