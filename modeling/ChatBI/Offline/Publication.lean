import ChatBI.Lib.Transition
import ChatBI.Offline.Documents
import ChatBI.Relationships.Resolve
import Mathlib.Logic.Function.Basic

/-!
# Publishing offline assets

Builds run at the same time on one output directory and one vector store. Each goes through the
operations of `build_offline_assets` in order; any of them may raise, with or without an effect,
which starts the cleaning up, and a build may die at any point.
-/

namespace ChatBI.Offline

open ChatBI.Lib ChatBI.Relationships

/-- What a build has worked out before it touches the output. -/
structure Build where
  buildId : String
  collectionPrefix : String
  documentCount : String → Nat
  graph : RelationshipGraph
  embedding : Json
  provenance : Json
  publishedAt : String

section Contents

/-- `_SAFE_BUILD_ID`. -/
def isSafe (text : String) : Bool :=
  text.toList ≠ [] && text.toList.all fun c => c.isAlphanum || c = '_' || c = '-'

/-- `_validate_build_id` and `_validate_collection_prefix`. -/
def Build.Valid (b : Build) : Prop := isSafe b.buildId = true ∧ isSafe b.collectionPrefix = true

instance (b : Build) : Decidable b.Valid := inferInstanceAs (Decidable (_ ∧ _))

/-- `_physical_collection_name`. -/
def Build.physicalName (b : Build) (collection : String) : String :=
  s!"{b.collectionPrefix}_{lowered collection}__{b.buildId}"

def Build.manifest (b : Build) : Json :=
  let counts := collections.map fun c => (c, Json.int (b.documentCount c))
  .obj [("schema_version", .int 1), ("status", .str "READY"), ("build_id", .str b.buildId),
    ("collections", .obj (collections.map fun c =>
      (c, .obj [("name", .str (b.physicalName c)), ("document_count", .int (b.documentCount c))]))),
    ("document_counts", .obj counts), ("relationship_edge_count", .int b.graph.foreignKeys.length),
    ("relationship_graph", .str "relationship_graph.json"), ("embedding", b.embedding),
    ("provenance", b.provenance)]

/-- What is written to `current.json`. -/
def Build.pointer (b : Build) : Json :=
  .obj [("schema_version", .int 1), ("build_id", .str b.buildId),
    ("manifest_path", .str s!"{b.buildId}/manifest.json"), ("published_at", .str b.publishedAt)]

end Contents

section Storage

/-- A collection of the vector store, or a directory of a build: the staging one or the final one. -/
inductive Resource where
  | collection (name : String)
  | staging (buildId : String)
  | final (buildId : String)
  deriving DecidableEq

/-- The number of documents of a collection, or the files of a directory that can be read. -/
inductive Content where
  | documents (count : Nat)
  | files (graph manifest : Option Json)

/-- What builds share. The builds that have replaced the pointer are remembered, the last one
first. -/
structure Storage where
  store : Resource → Option Content
  current : Option Json
  history : List Build

/-- The local variables of a build that its cleaning up looks at. -/
structure Locals where
  createdCollections : List String
  stagingDirCreated : Bool
  finalDirCreated : Bool
  pointerPublished : Bool

def noLocals : Locals := ⟨[], false, false, false⟩

def Storage.put (s : Storage) (r : Resource) (v : Option Content) : Storage :=
  { s with store := Function.update s.store r v }

end Storage

section Operations

/-- The operations on what builds share, in the order of the source. -/
inductive Op where
  | checkDirectories
  | makeStaging
  | embed (collection : String)
  | create (name : String)
  | upsert (name : String)
  | validate (name : String) (count : Nat)
  | writeGraph
  | writeManifest
  | publishDirectory
  | writeTemporary
  | replacePointer
  | checkTemporary
  deriving DecidableEq

/-- The loop over the collections. -/
def Build.collectionOps (b : Build) (collection : String) : List Op :=
  [.embed collection, .create (b.physicalName collection), .upsert (b.physicalName collection),
    .validate (b.physicalName collection) (b.documentCount collection)]

/-- The operations of `build_offline_assets`. -/
def Build.plan (b : Build) : List Op :=
  [.checkDirectories, .makeStaging] ++ collections.flatMap b.collectionOps ++
    [.writeGraph, .writeManifest, .publishDirectory, .writeTemporary, .replacePointer,
      .checkTemporary]

variable (b : Build)

/-- The operation succeeds. An upsert leaves as many documents as the vector store says. -/
def Op.perform (documents : Nat) (s : Storage) (l : Locals) : Op → Option (Storage × Locals)
  | checkDirectories =>
    if (s.store (.staging b.buildId)).isNone ∧ (s.store (.final b.buildId)).isNone then some (s, l)
    else none
  | makeStaging =>
    if (s.store (.staging b.buildId)).isNone then
      some (s.put (.staging b.buildId) (some (.files none none)), { l with stagingDirCreated := true })
    else none
  | embed _ => some (s, l)
  | create name =>
    if (s.store (.collection name)).isNone then
      some (s.put (.collection name) (some (.documents 0)),
        { l with createdCollections := l.createdCollections ++ [name] })
    else none
  | upsert name =>
    match s.store (.collection name) with
    | some (.documents _) => some (s.put (.collection name) (some (.documents documents)), l)
    | _ => none
  | validate name count =>
    match s.store (.collection name) with
    | some (.documents n) => if n = count then some (s, l) else none
    | _ => none
  | writeGraph =>
    match s.store (.staging b.buildId) with
    | some (.files _ manifest) =>
      some (s.put (.staging b.buildId) (some (.files (some b.graph.toJson) manifest)), l)
    | _ => none
  | writeManifest =>
    match s.store (.staging b.buildId) with
    | some (.files graph _) =>
      some (s.put (.staging b.buildId) (some (.files graph (some b.manifest))), l)
    | _ => none
  | publishDirectory =>
    match s.store (.staging b.buildId), s.store (.final b.buildId) with
    | some (.files graph manifest), none =>
      some ((s.put (.staging b.buildId) none).put (.final b.buildId) (some (.files graph manifest)),
        { l with stagingDirCreated := false, finalDirCreated := true })
    | _, _ => none
  | writeTemporary => some (s, l)
  | replacePointer => some ({ s with current := some b.pointer, history := b :: s.history }, l)
  | checkTemporary => some (s, { l with pointerPublished := true })

/-- The operation raises. It may have an effect all the same: a collection may be there after all,
with any number of documents, and a file that could not be written is lost. -/
def Op.raised (effect : Option Nat) (s : Storage) : Op → Storage
  | create name =>
    if effect.isSome ∧ (s.store (.collection name)).isNone then
      s.put (.collection name) (some (.documents 0))
    else s
  | upsert name =>
    match effect, s.store (.collection name) with
    | some n, some (.documents _) => s.put (.collection name) (some (.documents n))
    | _, _ => s
  | writeGraph =>
    match s.store (.staging b.buildId) with
    | some (.files _ manifest) => s.put (.staging b.buildId) (some (.files none manifest))
    | _ => s
  | writeManifest =>
    match s.store (.staging b.buildId) with
    | some (.files graph _) => s.put (.staging b.buildId) (some (.files graph none))
    | _ => s
  | _ => s

/-- What the cleaning up removes, in its order. -/
def Locals.cleanup (l : Locals) : List Resource :=
  l.createdCollections.reverse.map .collection ++
    (if l.stagingDirCreated then [.staging b.buildId] else []) ++
    (if l.finalDirCreated ∧ ¬l.pointerPublished then [.final b.buildId] else [])

end Operations

section Builds

/-- Where a build stands: at an operation, or cleaning up; a build that is dead stays so. -/
inductive Phase where
  | running (pc : Nat) (l : Locals)
  | cleaning (todo : List Resource)
  | ended

structure World where
  storage : Storage
  builds : Nat → Option (Build × Phase)

/-- What happens to a build. -/
inductive Action where
  | begin (b : Build)
  | perform (documents : Nat)
  | raise (effect : Option Nat)
  | clean (removed raised : Bool)
  | crash

def World.put (w : World) (k : Nat) (b : Build) (p : Phase) (s : Storage) : World where
  storage := s
  builds := Function.update w.builds k (some (b, p))

/-- The removal of a resource. A collection that cannot be deleted is left behind; a directory that
cannot be removed loses its files and ends the cleaning up. -/
def cleanStep (s : Storage) (removed raised : Bool) : List Resource → Storage × Phase
  | [] => (s, .ended)
  | .collection name :: todo => (if removed then s.put (.collection name) none else s, .cleaning todo)
  | r :: todo =>
    (s.put r (if removed then none else some (.files none none)),
      if raised then .ended else .cleaning todo)

def World.next (w : World) : Nat × Action → Option World
  | (k, .begin b) =>
    if (w.builds k).isNone ∧ b.Valid then some (w.put k b (.running 0 noLocals) w.storage) else none
  | (k, .perform n) =>
    match w.builds k with
    | some (b, .running pc l) => do
      let op ← b.plan[pc]?
      let (s, l') ← op.perform b n w.storage l
      return w.put k b (.running (pc + 1) l') s
    | _ => none
  | (k, .raise effect) =>
    match w.builds k with
    | some (b, .running pc l) => do
      let op ← b.plan[pc]?
      return w.put k b (.cleaning (l.cleanup b)) (op.raised b effect w.storage)
    | _ => none
  | (k, .clean removed raised) =>
    match w.builds k with
    | some (b, .cleaning todo) =>
      some (w.put k b (cleanStep w.storage removed raised todo).2
        (cleanStep w.storage removed raised todo).1)
    | _ => none
  | (k, .crash) =>
    match w.builds k with
    | some (b, _) => some (w.put k b .ended w.storage)
    | none => none

/-- Nothing has been published and no build has begun; the vector store may hold other
collections. -/
def World.IsFresh (w : World) : Prop :=
  w.storage.current = none ∧ w.storage.history = [] ∧ w.builds = fun _ => none

def publishing : System World (Nat × Action) where
  init := World.IsFresh
  step w e w' := w.next e = some w'

/-- The check for the temporary file does not raise after the pointer was replaced. -/
def World.ChecksTemporary (w : World) (e : Nat × Action) : Prop :=
  ∀ effect, e.2 = .raise effect → ∀ b pc l, w.builds e.1 = some (b, .running pc l) →
    b.plan[pc]? ≠ some .checkTemporary

end Builds

section Loading

/-- `_safe_relative_path`: the parts of a relative path that stays below its directory. -/
def safeRelativePath : Json → Option (List String)
  | .str value =>
    let parts := (split value "/").filter fun part => part ≠ "" ∧ part ≠ "."
    if strip value = "" ∨ value.toList.head? = some '/' ∨ ".." ∈ parts then none else some parts
  | _ => none

/-- The file at a path below the output directory. -/
def Storage.file (s : Storage) : List String → Option Json
  | ["current.json"] => s.current
  | [directory, name] =>
    match s.store (.final directory) with
    | some (.files graph manifest) =>
      if name = "manifest.json" then manifest
      else if name = "relationship_graph.json" then graph
      else none
    | _ => none
  | _ => none

/-- `_read_json_object`. -/
def Storage.readJsonObject (s : Storage) (path : List String) : Except String Json :=
  match s.file path with
  | none => .error ("发布文件不存在：" ++ path.getLastD "")
  | some value =>
    if value.isDict then .ok value else .error ("发布文件必须是 JSON 对象：" ++ path.getLastD "")

structure PublishedAsset where
  buildId : String
  collectionNames : List (String × String)
  relationshipGraph : Json
  manifest : Json

/-- The name of a collection in a manifest. -/
def collectionName (raw : Json) (collection : String) : Except String (String × String) :=
  match raw.get? collection with
  | some item =>
    match item.field "name" with
    | .str name => if item.isDict then .ok (collection, name) else .error s!"manifest 缺少 {collection} 集合"
    | _ => .error s!"manifest 缺少 {collection} 集合"
  | none => .error s!"manifest 缺少 {collection} 集合"

/-- A value that is the given text. -/
def isThe (text : String) : Json → Bool
  | .str s => s = text
  | _ => false

/-- `load_published_asset`. The three files are read one after another, from the storage as it is
then. -/
def loadPublishedAsset (atPointer atManifest atGraph : Storage) : Except String PublishedAsset := do
  let current ← atPointer.readJsonObject ["current.json"]
  match current.field "build_id" with
  | .str buildId => do
    require (buildId ≠ "") "current.json 缺少有效 build_id"
    match safeRelativePath (current.field "manifest_path") with
    | none => .error "current.json 的 manifest_path 无效"
    | some path => do
      let manifest ← atManifest.readJsonObject path
      require (isThe buildId (manifest.field "build_id") ∧ isThe "READY" (manifest.field "status"))
        "已发布 manifest 与 current 指针不一致"
      let raw := manifest.field "collections"
      require raw.isDict "manifest 缺少 collections"
      let names ← collections.mapM (collectionName raw)
      match safeRelativePath (manifest.field "relationship_graph") with
      | none => .error "manifest 的 relationship_graph 无效"
      | some relative => do
        let graph ← atGraph.readJsonObject (path.dropLast ++ relative)
        require (graph.field "foreign_keys").isList "已发布关系图缺少 foreign_keys"
        return ⟨buildId, names, graph, manifest⟩
  | _ => .error "current.json 缺少有效 build_id"

end Loading

end ChatBI.Offline
