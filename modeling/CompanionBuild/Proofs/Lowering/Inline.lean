import CompanionBuild.Proofs.Lowering.Candidate
import CompanionBuild.Proofs.Within
import CompanionBuild.Resource.Inline
import Mathlib.Data.List.Perm.Subperm

/-! # Inlined resources and the nodes to be lowered

Putting resources in place moves the styles of a component and drops what named its files. None of that is lowered, so
the nodes to be lowered are the same in another order, and no place is used that was not used before.
-/

namespace CompanionBuild.Resource

open Lowering

variable {σ : Type} {load : String → ResourceM σ String} (exported : Names)

/-- Nodes with their candidates, and what becomes of them: the same candidates in some order, at no new place. -/
structure Rearranges (nodes made : List Expr) (asked kept : List Candidate) : Prop where
  lowered : kept.Perm asked
  placed : (places made).Subperm (places nodes)

namespace Rearranges

variable {nodes made nodes' made' : List Expr} {asked kept asked' kept' : List Candidate}

theorem refl (nodes : List Expr) (asked : List Candidate) : Rearranges nodes nodes asked asked :=
  ⟨.refl asked, .refl _⟩

theorem append (left : Rearranges nodes made asked kept) (right : Rearranges nodes' made' asked' kept') :
    Rearranges (nodes ++ nodes') (made ++ made') (asked ++ asked') (kept ++ kept') := by
  refine ⟨left.lowered.append right.lowered, ?_⟩
  rw [places_append, places_append]
  exact left.placed.append right.placed

/-- What is made may be put in another order. -/
theorem perm (rearranges : Rearranges nodes made asked kept) (sameNodes : made'.Perm made)
    (sameCandidates : kept'.Perm kept) : Rearranges nodes made' asked kept' :=
  ⟨sameCandidates.trans rearranges.lowered, ((sameNodes.filter _).map _).subperm.trans rearranges.placed⟩

/-- A node changes in place. -/
theorem change {e e' : Expr} (span : e'.span = e.span) : Rearranges [e] [e'] [] [] := by
  have same : places [e'] = places [e] := by
    have place : e'.place = e.place := congrArg (fun span => (span.start, span.stop)) span
    rw [places, places, List.filter_singleton, List.filter_singleton, span]
    cases e.span.isSynthetic
    · exact congrArg (fun place => [place]) place
    · rfl
  exact ⟨.refl _, same ▸ .refl _⟩

theorem cons {e e' : Expr} (rest : Rearranges nodes made asked kept) (span : e'.span = e.span) :
    Rearranges (e :: nodes) (e' :: made) asked kept :=
  (change span).append rest

/-- Nodes without candidates are dropped. -/
theorem drop (others : List Expr) (rest : Rearranges nodes made asked kept) :
    Rearranges (others ++ nodes) made asked kept :=
  ⟨rest.lowered, rest.placed.trans (places_sublist (List.sublist_append_right ..)).subperm⟩

end Rearranges

/-- The candidates in the value of a property that is not lowered. -/
theorem candidatesOfProperties_keyValue {key : PropertyName} {name : String} (text : key.text? = some name)
    (plain : defaultFields.contains name = false) (value : Expr) :
    candidatesOfProperties defaultFields exported [.keyValue key value] =
      candidates defaultFields exported false none value := by
  rw [candidatesOfProperties, text, Option.any_some, plain, candidatesOfProperties, List.append_nil]

theorem candidates_of_stringLiteral? {e : Expr} {text : String} (literal : e.stringLiteral? = some text) :
    candidates defaultFields exported false none e = [] := by
  cases e with
  | literal span value => rfl
  | _ => cases literal

theorem loadStyles_yields {elements texts : List Expr} (yields : Yields (loadStyles load elements) texts) :
    Rearranges (Expr.walkAll elements) (Expr.walkAll texts) (candidatesOfList defaultFields exported elements)
      (candidatesOfList defaultFields exported texts) := by
  induction elements generalizing texts with
  | nil =>
    obtain rfl := yields.eq_of_pure
    exact .refl _ _
  | cons element rest ih =>
    rw [loadStyles] at yields
    split at yields
    case h_1 => exact yields.not_throw.elim
    case h_2 url literal =>
      obtain ⟨text, -, yields⟩ := yields.of_bind
      obtain ⟨others, loaded, yields⟩ := yields.of_bind
      obtain rfl := yields.eq_of_pure
      have first : Rearranges element.walk (Expr.string text).walk
          (candidates defaultFields exported false none element) (candidates defaultFields exported false none (Expr.string text)) := by
        rw [candidates_of_stringLiteral? exported literal, candidates_of_stringLiteral? exported rfl]
        exact ⟨.refl _, List.nil_subperm⟩
      exact first.append (ih loaded)

/-- One property keeps its candidates, some of them among the styles that it contributes. -/
theorem inlineProperty_yields {property : Property} {kept : List Property} {styles : List Expr}
    (yields : Yields (inlineProperty load property) (kept, styles)) :
    Rearranges property.walk (Property.walkAll kept ++ Expr.walkAll styles)
      (candidatesOfProperties defaultFields exported [property])
      (candidatesOfProperties defaultFields exported kept ++ candidatesOfList defaultFields exported styles) := by
  have same (yields : Yields (pure ([property], []) : ResourceM σ _) (kept, styles)) :
      Rearranges property.walk (Property.walkAll kept ++ Expr.walkAll styles)
        (candidatesOfProperties defaultFields exported [property])
        (candidatesOfProperties defaultFields exported kept ++ candidatesOfList defaultFields exported styles) := by
    cases yields.eq_of_pure
    rw [candidatesOfList, List.append_nil, Property.walkAll, Property.walkAll, Expr.walkAll, List.append_nil,
      List.append_nil]
    exact .refl _ _
  cases property with
  | shorthand name => exact same yields
  | spread value => exact same yields
  | keyValue key value =>
    unfold inlineProperty at yields
    dsimp only at yields
    split at yields
    case h_1 text =>
      rw [candidatesOfProperties_keyValue exported text (by decide)]
      split at yields
      case h_1 span elements =>
        cases yields.eq_of_pure
        exact .drop key.walk (.drop [.array span styles] (.refl _ _))
      case h_2 => exact yields.not_throw.elim
    case h_2 text =>
      rw [candidatesOfProperties_keyValue exported text (by decide)]
      split at yields
      case h_1 span elements =>
        obtain ⟨texts, loaded, yields⟩ := yields.of_bind
        cases yields.eq_of_pure
        exact .drop key.walk (.drop [.array span elements] (loadStyles_yields exported loaded))
      case h_2 => exact yields.not_throw.elim
    case h_3 text =>
      rw [candidatesOfProperties_keyValue exported text (by decide)]
      split at yields
      case h_1 url literal =>
        obtain ⟨content, -, yields⟩ := yields.of_bind
        cases yields.eq_of_pure
        rw [candidates_of_stringLiteral? exported literal]
        have inside : Rearranges value.walk [.literal value.span (.string content)] [] [] := by
          cases value with
          | literal span value => exact .change rfl
          | _ => cases literal
        exact inside.drop key.walk
      case h_2 => exact yields.not_throw.elim
    case h_4 => exact same yields

theorem candidatesOfProperties_append (properties others : List Property) :
    candidatesOfProperties defaultFields exported (properties ++ others) =
      candidatesOfProperties defaultFields exported properties ++
        candidatesOfProperties defaultFields exported others := by
  induction properties with
  | nil => rfl
  | cons property rest ih =>
    cases property <;> simp only [List.cons_append, candidatesOfProperties, ih, List.append_assoc]

theorem walkAllProperties_append (properties others : List Property) :
    Property.walkAll (properties ++ others) = Property.walkAll properties ++ Property.walkAll others := by
  induction properties with
  | nil => rfl
  | cons property rest ih => rw [List.cons_append, Property.walkAll, Property.walkAll, ih, List.append_assoc]

theorem candidatesOfList_eq_flatMap (list : List Expr) :
    candidatesOfList defaultFields exported list = list.flatMap (candidates defaultFields exported false none) := by
  induction list with
  | nil => rfl
  | cons e rest ih => rw [candidatesOfList, ih, List.flatMap_cons]

theorem perm_interchange {α : Type} (a b c d : List α) : ((a ++ c) ++ (b ++ d)).Perm ((a ++ b) ++ (c ++ d)) := by
  rw [List.append_assoc, List.append_assoc]
  exact (List.perm_append_comm_assoc c b d).append_left a

theorem inlineProperties_yields {properties kept : List Property} {styles : List Expr}
    (yields : Yields (inlineProperties load properties) (kept, styles)) :
    Rearranges (Property.walkAll properties) (Property.walkAll kept ++ Expr.walkAll styles)
      (candidatesOfProperties defaultFields exported properties)
      (candidatesOfProperties defaultFields exported kept ++ candidatesOfList defaultFields exported styles) := by
  induction properties generalizing kept styles with
  | nil =>
    cases yields.eq_of_pure
    exact .refl _ _
  | cons property rest ih =>
    obtain ⟨⟨keptHere, stylesHere⟩, first, yields⟩ := yields.of_bind
    obtain ⟨⟨keptRest, stylesRest⟩, others, yields⟩ := yields.of_bind
    cases yields.eq_of_pure
    have both := (inlineProperty_yields exported first).append (ih others)
    rw [← candidatesOfProperties_append] at both
    refine both.perm ?_ ?_
    · rw [walkAllProperties_append, walkAll_eq_flatMap, List.flatMap_append, ← walkAll_eq_flatMap, ← walkAll_eq_flatMap]
      exact perm_interchange ..
    · rw [candidatesOfProperties_append, candidatesOfList_eq_flatMap, List.flatMap_append,
        ← candidatesOfList_eq_flatMap, ← candidatesOfList_eq_flatMap]
      exact perm_interchange ..

/-- The styles end up in a list that was made up and is not lowered, so they stay the nodes they were. -/
theorem Rearranges.collect {written : List Expr} {asked : List Candidate} {kept : List Property} {styles : List Expr}
    (inside : Rearranges written (Property.walkAll kept ++ Expr.walkAll styles) asked
      (candidatesOfProperties defaultFields exported kept ++ candidatesOfList defaultFields exported styles)) :
    Rearranges written
      (Property.walkAll (kept ++ if styles.isEmpty then [] else [Property.named "styles" (.array .synthetic styles)]))
      asked (candidatesOfProperties defaultFields exported
        (kept ++ if styles.isEmpty then [] else [Property.named "styles" (.array .synthetic styles)])) := by
  rw [walkAllProperties_append, candidatesOfProperties_append]
  cases styles with
  | nil => exact inside
  | cons style styles =>
    have list : candidatesOfProperties defaultFields exported [.named "styles" (.array .synthetic (style :: styles))] =
        candidatesOfList defaultFields exported (style :: styles) :=
      candidatesOfProperties_keyValue exported rfl (by decide) _
    have nodes : places (Property.walkAll [.named "styles" (.array .synthetic (style :: styles))]) =
        places (Expr.walkAll (style :: styles)) := by
      change places (Expr.walkAll (style :: styles) ++ []) = _
      rw [List.append_nil]
    rw [List.isEmpty_cons, if_neg Bool.false_ne_true, list]
    refine ⟨inside.lowered, ?_⟩
    rw [places_append, nodes, ← places_append]
    exact inside.placed

theorem inlineArguments_yields {args made : List Expr} (yields : Yields (inlineArguments load args) made) :
    Rearranges (Expr.walkAll args) (Expr.walkAll made) (candidatesOfList defaultFields exported args)
      (candidatesOfList defaultFields exported made) := by
  unfold inlineArguments at yields
  split at yields
  case h_1 span properties =>
    obtain ⟨⟨kept, styles⟩, inlined, yields⟩ := yields.of_bind
    cases yields.eq_of_pure
    have inside := inlineProperties_yields exported inlined
    exact Rearranges.append (Rearranges.cons (.collect exported inside) rfl) (.refl [] [])
  case h_2 =>
    obtain rfl := yields.eq_of_pure
    exact .refl _ _

theorem inlineDecorator_yields {u : SourceUnit} {decorator made : Expr}
    (yields : Yields (inlineDecorator load u decorator) made) :
    Rearranges decorator.walk made.walk (candidates defaultFields exported false none decorator)
      (candidates defaultFields exported false none made) := by
  unfold inlineDecorator at yields
  split at yields
  case h_1 span callee args =>
    split at yields
    · obtain ⟨others, inlined, yields⟩ := yields.of_bind
      obtain rfl := yields.eq_of_pure
      have inside := (Rearranges.refl callee.walk (candidates defaultFields exported false none callee)).append
        (inlineArguments_yields exported inlined)
      exact inside.cons rfl
    · obtain rfl := yields.eq_of_pure
      exact .refl _ _
  case h_2 =>
    obtain rfl := yields.eq_of_pure
    exact .refl _ _

/-- Resources in a field are no decorators. -/
theorem inlineMember_yields {u : SourceUnit} {member made : Located Member}
    (yields : Yields (inlineMember load u member) made) :
    decoratorsOfMember made.value = decoratorsOfMember member.value := by
  unfold inlineMember at yields
  split at yields
  case h_1 f isField =>
    split at yields
    · split at yields
      · obtain ⟨records, -, yields⟩ := yields.of_bind
        obtain rfl := yields.eq_of_pure
        rw [isField]
        rfl
      · rw [yields.eq_of_pure]
    · rw [yields.eq_of_pure]
  case h_2 => rw [yields.eq_of_pure]

theorem decoratorsOfMembers_eq {u : SourceUnit} {members made : List (Located Member)}
    (each : List.Forall₂ (fun member made => Yields (inlineMember load u member) made) members made) :
    made.flatMap (fun member => decoratorsOfMember member.value) =
      members.flatMap fun member => decoratorsOfMember member.value := by
  induction each with
  | nil => rfl
  | cons first _ ih => rw [List.flatMap_cons, List.flatMap_cons, inlineMember_yields first, ih]

/-! ## Items -/

/-- Expressions with all their nodes and candidates, and what becomes of them. -/
abbrev RearrangesAll (exprs made : List Expr) : Prop :=
  Rearranges (exprs.flatMap Expr.walk) (made.flatMap Expr.walk)
    (exprs.flatMap (candidates defaultFields exported false none))
    (made.flatMap (candidates defaultFields exported false none))

theorem rearrangesAll_of_forall₂ {exprs made : List Expr} (each : List.Forall₂ (fun e made => Rearranges e.walk made.walk
    (candidates defaultFields exported false none e) (candidates defaultFields exported false none made)) exprs made) :
    RearrangesAll exported exprs made := by
  induction each with
  | nil => exact .refl _ _
  | cons first _ ih => exact first.append ih

theorem inlineClass_yields {u : SourceUnit} {c made : ClassDecl} (yields : Yields (inlineClass load u c) made) :
    made.name = c.name ∧ RearrangesAll exported (decoratorsOfClass c) (decoratorsOfClass made) := by
  obtain ⟨decorators, ofClass, yields⟩ := yields.of_bind
  obtain ⟨members, ofMembers, yields⟩ := yields.of_bind
  obtain rfl := yields.eq_of_pure
  have own := rearrangesAll_of_forall₂ exported
    (ofClass.forall₂_of_mapM.imp fun _ _ yields => inlineDecorator_yields exported yields)
  refine ⟨rfl, ?_⟩
  rw [RearrangesAll, decoratorsOfClass, decoratorsOfClass, decoratorsOfMembers_eq ofMembers.forall₂_of_mapM]
  simp only [List.flatMap_append]
  exact own.append (.refl _ _)

/-- An item stays as it is, apart from the inside of its class. -/
inductive Inlined (exported : Names) : Located Item → Located Item → Prop
  | same (item : Located Item) : Inlined exported item item
  | ofClass (span : Span) {c made : ClassDecl} (name : made.name = c.name)
      (decorators : RearrangesAll exported (decoratorsOfClass c) (decoratorsOfClass made))
      (wrap : Decl → Item) (wrapped : wrap = .decl ∨ wrap = .exportDecl) :
      Inlined exported ⟨span, wrap (.classDecl c)⟩ ⟨span, wrap (.classDecl made)⟩

theorem inlineItem_yields {u : SourceUnit} {item made : Located Item} (yields : Yields (inlineItem load u item) made) :
    Inlined exported item made := by
  obtain ⟨span, value⟩ := item
  have same {item made : Located Item} (yields : Yields (pure item : ResourceM σ _) made) :
      Inlined exported item made := by
    rw [yields.eq_of_pure]
    exact .same item
  unfold inlineItem at yields
  cases value with
  | decl d =>
    cases d with
    | classDecl c =>
      obtain ⟨decl, inlined, yields⟩ := yields.of_bind
      obtain rfl := yields.eq_of_pure
      obtain ⟨name, decorators⟩ := inlineClass_yields exported inlined
      exact .ofClass span name decorators .decl (.inl rfl)
    | _ => exact same yields
  | exportDecl d =>
    cases d with
    | classDecl c =>
      obtain ⟨decl, inlined, yields⟩ := yields.of_bind
      obtain rfl := yields.eq_of_pure
      obtain ⟨name, decorators⟩ := inlineClass_yields exported inlined
      exact .ofClass span name decorators .exportDecl (.inr rfl)
    | _ => exact same yields
  | _ => exact same yields

theorem inlined_self (items : Items) : List.Forall₂ (Inlined exported) items items :=
  List.forall₂_same.mpr fun item _ => .same item

/-- The items of a unit with its resources in place. -/
theorem inlineUnit_yields {host : ResourceHost σ} {u made : SourceUnit} (yields : Yields (inlineUnit host u) made) :
    made.name = u.name ∧ made.isDeclaration = u.isDeclaration ∧
      List.Forall₂ (Inlined exported) u.items made.items := by
  obtain ⟨items, inlined, yields⟩ := yields.of_bind
  obtain rfl := yields.eq_of_pure
  exact ⟨rfl, rfl, inlined.forall₂_of_mapM.imp fun _ _ yields => inlineItem_yields exported yields⟩

/-! ## What stays -/

theorem Inlined.rearranges {item made : Located Item} (inlined : Inlined exported item made) :
    Rearranges ((rootsOfItem item.value).flatMap Expr.walk) ((rootsOfItem made.value).flatMap Expr.walk)
      (candidatesOfItem defaultFields exported item.value) (candidatesOfItem defaultFields exported made.value) := by
  cases inlined with
  | same => exact .refl _ _
  | ofClass span name decorators wrap wrapped =>
    obtain rfl | rfl := wrapped
    · exact decorators
    · exact decorators

theorem exportedNames_eq {u made : SourceUnit} (inlined : List.Forall₂ (Inlined exported) u.items made.items) :
    exportedNames made = exportedNames u := by
  unfold exportedNames
  congr 1
  generalize u.items = items, made.items = others at inlined
  induction inlined with
  | nil => rfl
  | cons first _ ih =>
    rw [List.flatMap_cons, List.flatMap_cons, ih]
    congr 1
    cases first with
    | same => rfl
    | ofClass span name decorators wrap wrapped =>
      obtain rfl | rfl := wrapped
      · rfl
      · exact congrArg (fun name => [name]) name

/-- Putting resources in place keeps the nodes to be lowered, at no new place. -/
theorem rearranges_of_inlined {items made : Items} (inlined : List.Forall₂ (Inlined exported) items made) :
    Rearranges (nodesOf items) (nodesOf made) (candidatesOf defaultFields exported items)
      (candidatesOf defaultFields exported made) := by
  induction inlined with
  | nil => exact .refl _ _
  | cons first _ ih => exact first.rearranges.append ih

end CompanionBuild.Resource
