import CompanionBuild.Metadata
import CompanionBuild.Proofs.Within
import CompanionBuild.Resolution

/-! # Resolution, inlining and revision

Modules are resolved, resources put in place and metadata revised in any state, the files and resources being
parameters. What passes from the parts of a computation to the whole holds of all of it as soon as it holds of the
questions about files and resources; so it stays within a relation when these do.
-/

namespace CompanionBuild.Composes

variable {σ : Type} {P : {α : Type} → ResourceM σ α → Prop} (composes : Composes P) {load : String → ResourceM σ String}
  (loads : ∀ url, P (load url))

include composes loads

theorem loadStyles (elements : List Expr) : P (Resource.loadStyles load elements) := by
  induction elements with
  | nil => exact composes.pure _
  | cons element rest ih =>
    unfold Resource.loadStyles
    split
    · exact composes.throw _
    · exact composes.bind (loads _) fun _ => composes.bind ih fun _ => composes.pure _

theorem inlineProperty (property : Property) : P (Resource.inlineProperty load property) := by
  unfold Resource.inlineProperty
  repeat' split
  all_goals first
    | exact composes.pure _
    | exact composes.throw _
    | exact composes.bind (loadStyles composes loads _) fun _ => composes.pure _
    | exact composes.bind (loads _) fun _ => composes.pure _

theorem inlineProperties (properties : List Property) : P (Resource.inlineProperties load properties) := by
  induction properties with
  | nil => exact composes.pure _
  | cons property rest ih =>
    exact composes.bind (inlineProperty composes loads property) fun _ => composes.bind ih fun _ => composes.pure _

theorem inlineArguments (args : List Expr) : P (Resource.inlineArguments load args) := by
  unfold Resource.inlineArguments
  split
  · exact composes.bind (inlineProperties composes loads _) fun _ => composes.pure _
  · exact composes.pure _

variable (u : SourceUnit)

theorem inlineDecorator (decorator : Expr) : P (Resource.inlineDecorator load u decorator) := by
  unfold Resource.inlineDecorator
  split
  · split
    · exact composes.bind (inlineArguments composes loads _) fun _ => composes.pure _
    · exact composes.pure _
  · exact composes.pure _

theorem inlineRecord (annotated : Expr) : P (Resource.inlineRecord load u annotated) := by
  unfold Resource.inlineRecord
  split
  · split
    · refine composes.bind (composes.mapM (fun property => ?_) _) fun _ => composes.pure _
      unfold Resource.inlineRecordProperty
      split
      · exact composes.bind (inlineArguments composes loads _) fun _ => composes.pure _
      · exact composes.pure _
    · exact composes.pure _
  · exact composes.pure _

theorem inlineMember (member : Located Member) : P (Resource.inlineMember load u member) := by
  unfold Resource.inlineMember
  repeat' split
  all_goals first
    | exact composes.pure _
    | exact composes.bind (composes.mapM (inlineRecord composes loads u) _) fun _ => composes.pure _

theorem inlineClass (c : ClassDecl) : P (Resource.inlineClass load u c) :=
  composes.bind (composes.mapM (inlineDecorator composes loads u) _) fun _ =>
    composes.bind (composes.mapM (inlineMember composes loads u) _) fun _ => composes.pure _

theorem inlineItem (item : Located Item) : P (Resource.inlineItem load u item) := by
  unfold Resource.inlineItem
  split
  · exact composes.bind (inlineClass composes loads u _) fun _ => composes.pure _
  · exact composes.pure _

/-! ## Metadata -/

theorem loadValue (url : Json) : P (Resource.loadValue load url) := by
  unfold Resource.loadValue
  split
  · exact loads _
  · exact composes.throw _

theorem loadValues (urls : List Json) : P (Resource.loadValues load urls) := by
  induction urls with
  | nil => exact composes.pure _
  | cons url rest ih =>
    exact composes.bind (loadValue composes loads url) fun _ => composes.bind ih fun _ => composes.pure _

theorem inlineTemplate (fields : Table Json) : P (Resource.inlineTemplate load fields) := by
  unfold Resource.inlineTemplate
  split
  · exact composes.bind (loadValue composes loads _) fun _ => composes.pure _
  · exact composes.pure _

theorem inlineStyles (fields : Table Json) : P (Resource.inlineStyles load fields) := by
  unfold Resource.inlineStyles
  split
  · exact composes.throw _
  · exact composes.throw _
  · refine composes.bind (loadValues composes loads _) fun texts => ?_
    dsimp only
    split <;> exact composes.pure _

end CompanionBuild.Composes

namespace CompanionBuild.Within

variable {σ α : Type} {R : σ → σ → Prop} [IsPreorder σ R]

/-! ## Modules -/

section

variable {files : FileLookup σ} (exist : ∀ file, Within R (files.fileExists file))

include exist

theorem firstExisting (names : List String) :
    Within R (files.firstExisting names) := by
  induction names with
  | nil => exact .pure _
  | cons name rest ih =>
    refine .bind (exist name) fun found => ?_
    split
    · exact .pure _
    · exact ih

variable (reads : ∀ file, Within R (files.read file))

include reads

theorem packageFile (folder : String) (inside : Option String) :
    Within R (Resolution.packageFile files folder inside) := by
  cases inside with
  | some inside => exact firstExisting exist _
  | none =>
    refine .bind (.bind (reads _) fun _ => .pure _) fun descriptor => ?_
    exact firstExisting exist _

theorem resolvePackage (dirs : ∀ dir, Within R (files.directoryExists dir)) (package : String) (inside : Option String)
    (parents : List String) :
    Within R (Resolution.resolvePackage files package inside parents) := by
  induction parents with
  | nil => exact .pure _
  | cons dir rest ih =>
    unfold Resolution.resolvePackage
    split
    · exact ih
    · refine .bind (dirs _) fun found => ?_
      split
      · refine .bind (packageFile exist reads _ inside) fun file => ?_
        split
        · exact .pure _
        · exact ih
      · exact ih

theorem resolve (dirs : ∀ dir, Within R (files.directoryExists dir)) (name containing : String) :
    Within R (Resolution.resolve files name containing) := by
  refine .bind ?_ fun _ => .pure _
  unfold Resolution.resolveFile
  split
  · exact firstExisting exist _
  · split
    · exact firstExisting exist _
    · exact resolvePackage exist reads dirs _ _ _

end

/-! ## Resources -/

theorem resource {host : ResourceHost σ} (finds : ∀ url file, Within R (host.fileOf url file))
    (loads : ∀ file, Within R (host.load file)) (file url : String) : Within R (host.get file url).run := by
  refine .bindExcept (finds url file) fun target => ?_
  split
  · exact .throw _
  · refine .bindExcept (loads _) fun loaded => ?_
    split
    · exact .pure _
    · exact .throw _

theorem inlineUnit {host : ResourceHost σ} (loads : ∀ file url, Within R (host.get file url).run) (u : SourceUnit) :
    Within R (Resource.inlineUnit host u).run :=
  .bindExcept (.mapM (Within.composes.inlineItem (loads u.name) u) _) fun _ => .pure _

/-! ## Metadata -/

theorem reviseEach {revise : α → StateM σ (Revised α)} (revises : ∀ a, Within R (revise a)) (elements : List α) :
    Within R (reviseEach revise elements) := by
  induction elements with
  | nil => exact .pure _
  | cons element rest ih =>
    refine .bind (revises element) fun revised => ?_
    split
    · exact .pure _
    · exact .bind ih fun _ => .pure _

theorem reviseField {revise : Json → StateM σ (Revised Json)} (revises : ∀ json, Within R (revise json)) (json : Json)
    (name : String) : Within R (json.reviseField name revise) := by
  unfold Json.reviseField
  repeat' split
  all_goals first
    | exact .pure _
    | exact .bind (revises _) fun _ => .pure _

theorem reviseElements {revise : Json → StateM σ (Revised Json)} (revises : ∀ json, Within R (revise json))
    (json : Json) : Within R (Json.reviseElements revise json) := by
  unfold Json.reviseElements
  split
  · exact .bind (reviseEach revises _) fun _ => .pure _
  · exact .pure _

section

variable {load : String → ResourceM σ String} (loads : ∀ url, Within R (load url).run)

include loads

theorem inlineArgument (argument : Json) : Within R (Resource.inlineArgument load argument) := by
  unfold Resource.inlineArgument
  split
  · refine .bind (Within.composes.inlineTemplate loads _) fun outcome => ?_
    split
    · exact .pure _
    · refine .bind (Within.composes.inlineStyles loads _) fun outcome => ?_
      split <;> exact .pure _
  · exact .pure _

end

theorem inlineMetadata {host : ResourceHost σ} (loads : ∀ file url, Within R (host.get file url).run) (u : SourceUnit)
    (name : String) (metadata : Json) : Within R (Resource.inlineMetadata host u name metadata) := by
  unfold Resource.inlineMetadata
  split
  · refine reviseField (reviseElements fun decorator => ?_) _ _
    unfold Resource.inlineCall
    split
    · exact reviseField (reviseElements (inlineArgument (loads u.name))) _ _
    · exact .pure _
  · exact .pure _

theorem reviseMembers {transformer : MetadataTransformer σ} (u : SourceUnit)
    (transforms : ∀ name metadata, Within R (transformer u name metadata)) (metadata : Json) :
    Within R (reviseMembers u transformer metadata) := by
  refine reviseField (fun members => ?_) _ _
  split
  · refine .bind (reviseEach (fun entry => ?_) _) fun _ => .pure _
    exact .bind (transforms _ _) fun _ => .pure _
  · exact .pure _

theorem reviseModule (u : SourceUnit) {transformers : List (MetadataTransformer σ)}
    (transform : ∀ transformer ∈ transformers, ∀ name metadata, Within R (transformer u name metadata))
    (metadata : Json) : Within R (reviseModule u transformers metadata).run := by
  induction transformers generalizing metadata with
  | nil => exact .pure _
  | cons transformer rest ih =>
    refine .bindExcept (reviseMembers u (transform transformer (List.mem_cons_self ..)) metadata) fun revised => ?_
    split
    · exact .throw _
    · exact ih (fun other member => transform other (List.mem_cons_of_mem _ member)) _

theorem collectMetadata {collect : SourceUnit → StateM σ (Option Json)} {transformers : List (MetadataTransformer σ)}
    (collects : ∀ u, Within R (collect u)) (u : SourceUnit)
    (transform : ∀ transformer ∈ transformers, ∀ name metadata, Within R (transformer u name metadata)) :
    Within R (collectMetadata collect transformers u).run := by
  refine .bindExcept (collects u) fun metadata => ?_
  split
  · exact .pure _
  · split
    · exact .pure _
    · exact .bindExcept (reviseModule u transform _) fun _ => .pure _

end CompanionBuild.Within
