import CallAtlas.Proofs.ArtifactFiles
import CallAtlas.Proofs.BodyLoading
import CallAtlas.Proofs.EndpointRegistration
import CallAtlas.Proofs.Sorting

/-!
The methods of controllers in the artifacts: each is the entry of an endpoint or in the bundle of
controllers, and not in both.
-/

namespace CallAtlas

open ClassFile Files

theorem Text.occursIn_iff (part s : List Char) : Text.occursIn part s = true ↔ part <:+: s := by
  induction s with
  | nil => simp [occursIn]
  | cons c rest ih =>
    rw [occursIn, Bool.or_eq_true, List.isPrefixOf_iff_prefix, ih, List.infix_cons_iff]

namespace Project

namespace TypeBodies

variable {stored : Table MethodId String} {type : CompiledType} {source : TypeSource}
  {bodies next : TypeBodies}

theorem addMethod_keyed {method : CompiledMethod}
    (added : addMethod stored type source bodies method = .ok next)
    (keyed : bodies.infos.KeyedBy MethodInfo.id) : next.infos.KeyedBy MethodInfo.id := by
  simp only [addMethod] at added
  split at added
  · cases added
    exact keyed
  · obtain ⟨text, _, rest⟩ := bind_eq_ok.mp added
    obtain ⟨found, _, rest⟩ := bind_eq_ok.mp rest
    cases rest
    exact keyed.put rfl

theorem foldlM_addMethod_keyed {methods : List CompiledMethod}
    (added : methods.foldlM (addMethod stored type source) bodies = .ok next)
    (keyed : bodies.infos.KeyedBy MethodInfo.id) : next.infos.KeyedBy MethodInfo.id := by
  induction methods generalizing bodies with
  | nil =>
    cases added
    exact keyed
  | cons method rest ih =>
    rw [List.foldlM_cons] at added
    obtain ⟨middle, first, later⟩ := bind_eq_ok.mp added
    exact ih later (addMethod_keyed first keyed)

end TypeBodies

namespace BodyStore

theorem addType_keyed (disk : Disk) (type : CompiledType) {store : BodyStore}
    (keyed : store.infos.KeyedBy MethodInfo.id) :
    (store.addType disk type).1.infos.KeyedBy MethodInfo.id := by
  unfold addType
  split
  · exact keyed
  · rename_i source located log found
    obtain ⟨_, infos⟩ := sourceOf_stored found
    rw [← infos] at keyed
    split
    · exact keyed
    · rename_i bodies made
      exact keyed.merge (TypeBodies.foldlM_addMethod_keyed made .empty).own

theorem addTypes_keyed (disk : Disk) (types : List CompiledType) {store : BodyStore}
    (keyed : store.infos.KeyedBy MethodInfo.id) :
    (addTypes disk types store).1.infos.KeyedBy MethodInfo.id := by
  induction types generalizing store with
  | nil => exact keyed
  | cons type rest ih =>
    have next := addType_keyed disk type keyed
    unfold addTypes
    split
    rename_i middle log error step
    rw [step] at next
    split
    · exact ih next
    · exact ih next
    · exact next

theorem load_keyed (disk : Disk) (types : List CompiledType) {store : BodyStore}
    (keyed : store.infos.KeyedBy MethodInfo.id) :
    (store.load disk types).1.infos.KeyedBy MethodInfo.id := by
  have loaded := addTypes_keyed disk types keyed
  unfold load
  split
  rename_i middle log error run
  rw [run] at loaded
  split <;> exact loaded

theorem strict_controllerMethods {store : BodyStore} (keyed : store.infos.KeyedBy MethodInfo.id)
    (types : List String) : (store.controllerMethods types).Pairwise fun a b => a.id < b.id := by
  apply strict_sortBy MethodInfo.id
  have distinct : (store.infos.values.map MethodInfo.id).Nodup := keyed.names ▸ keyed.distinct
  exact distinct.sublist (List.filter_sublist.map MethodInfo.id)

end BodyStore

/-- A method that may be called from outside through a controller of these types: one with a
controller annotation or with the name of a controller. Initialisers and methods made by the
compiler are none. -/
structure ControllerAction (types : List CompiledType) (info : MethodInfo) : Prop where
  controller :
    (∃ type ∈ types, type.name = info.typeName ∧
      ∃ use ∈ type.annotations, isControllerUse use = true) ∨
    ".controllers.".toList <:+: info.typeName.toList ∨ "Controller".toList <:+ info.typeName.toList
  named : ¬ ['<'] <+: info.name.toList
  notSynthetic : info.access &&& syntheticFlag = 0
  notBridge : info.access &&& bridgeFlag = 0

theorem head?_eq_iff_prefix (c : Char) (s : List Char) : s.head? = some c ↔ [c] <+: s := by
  cases s with
  | nil => simp
  | cons first rest => simp [List.cons_prefix_cons, eq_comm]

theorem isAction_iff (info : MethodInfo) : info.isAction = true ↔
    ¬ ['<'] <+: info.name.toList ∧ info.access &&& syntheticFlag = 0 ∧
    info.access &&& bridgeFlag = 0 := by
  simp [MethodInfo.isAction, hasFlag, head?_eq_iff_prefix, and_assoc]

theorem mem_controllerMethods_scan {store : BodyStore} (keyed : store.infos.KeyedBy MethodInfo.id)
    (types : List CompiledType) (info : MethodInfo) :
    info ∈ store.controllerMethods (({} : EndpointRegistry).scan types).1.controllers ↔
      store.infos.get? info.id = some info ∧ ControllerAction types info := by
  have marked : info.typeName ∈ (({} : EndpointRegistry).scan types).1.controllers ↔
      ∃ type ∈ types, type.name = info.typeName ∧
        ∃ use ∈ type.annotations, isControllerUse use = true := by
    rw [EndpointRegistry.mem_controllers_scan]
    simp [and_comm]
  have byName : namesController info.typeName = true ↔
      ".controllers.".toList <:+: info.typeName.toList ∨
      "Controller".toList <:+ info.typeName.toList := by
    rw [namesController, Bool.or_eq_true, Text.occursIn_iff, endsWith, List.isSuffixOf_iff_suffix]
  rw [BodyStore.controllerMethods, List.mem_mergeSort, List.mem_filter, keyed.mem_values_iff,
    Bool.and_eq_true, Bool.or_eq_true, decide_eq_true_eq, marked, byName, isAction_iff]
  constructor
  · intro holds
    exact ⟨holds.1, holds.2.1, holds.2.2.1, holds.2.2.2.1, holds.2.2.2.2⟩
  · intro holds
    exact ⟨holds.1, holds.2.controller, holds.2.named, holds.2.notSynthetic, holds.2.notBridge⟩

end Project

namespace Artifact

open Project

namespace JsonValue

def field? (name : String) : JsonValue → Option JsonValue
  | object fields => Table.get? name fields
  | _ => none

def items : JsonValue → List JsonValue
  | list values => values
  | _ => []

def text? : JsonValue → Option String
  | text value => some value
  | _ => none

theorem field?_first (name : String) (value : JsonValue) (rest : List (String × JsonValue)) :
    (object ((name, value) :: rest)).field? name = some value := by
  simp only [field?, Table.get?, if_true]

def column (list name : String) (value : JsonValue) : List String :=
  (((value.field? list).map items).getD []).filterMap fun item => (item.field? name).bind text?

end JsonValue

def listedControllers (bundle : JsonValue) : List MethodId :=
  bundle.column "controllers" "controllerMethod"

theorem listedControllers_controllersValue (bodies : Bodies) (graph : CallGraph)
    (endpoints : List Endpoint) (controllers : List String) :
    listedControllers (bodies.controllersValue graph endpoints controllers) =
      (bodies.unmappedMethods endpoints controllers).map Project.MethodInfo.id := by
  simp only [listedControllers, JsonValue.column, Bodies.controllersValue, JsonValue.field?_first,
    Option.map_some, Option.getD_some, JsonValue.items, List.filterMap_map, Function.comp_def,
    Option.bind_some, JsonValue.text?]
  exact congrFun List.filterMap_eq_map' _

theorem mem_unmappedMethods_scan {bodies : Bodies}
    (keyed : bodies.store.infos.KeyedBy Project.MethodInfo.id)
    (types : List CompiledType) (info : Project.MethodInfo) :
    info ∈ bodies.unmappedMethods
      ((({} : EndpointRegistry).scan types).1.endpoints.mergeSort fun a b => a.key ≤ b.key)
        (({} : EndpointRegistry).scan types).1.controllers ↔
      (bodies.store.infos.get? info.id = some info ∧ ControllerAction types info) ∧
        ¬ ∃ endpoint, Survives (types.flatMap declaredEndpoints) endpoint ∧
        endpoint.entry = info.id := by
  rw [Bodies.unmappedMethods, List.mem_filter, mem_controllerMethods_scan keyed,
    decide_eq_true_eq, List.mem_map]
  simp only [List.mem_mergeSort, EndpointRegistry.mem_endpoints_scan]

theorem Progress.write_landed {σ : Type} {writer : Writer σ} {dir name : String} {value : JsonValue}
    {p : Progress σ}
    (unfailed : joinPath dir name ∉ (p.write writer dir name value).1.report.failed) :
    writer p.state (joinPath dir name) value.toText =
    .ok (p.write writer dir name value).1.state := by
  cases outcome : writer p.state (joinPath dir name) value.toText with
  | error reason =>
    simp only [write, outcome] at unfailed
    exact absurd (List.mem_append_right _ List.mem_cons_self) unfailed
  | ok state => simp only [write, outcome]

theorem read_controllersFile {output : Output} {bodies : Bodies}
    (enabled : output.bodies = some bodies) {endpoints : List Endpoint} {controllers : List String}
    {disk disk' : Disk} {log : Log} {report : Report}
    (saved : output.save endpoints controllers disk = (disk', log, .ok report))
    (written : joinPath output.dir controllersFile ∉ report.failed) :
    disk'.read (joinPath output.dir controllersFile) =
    .ok (Text.encodeUtf8 (bodies.controllersValue output.graph
      (endpoints.mergeSort fun a b => a.key ≤ b.key) controllers).toText.toList) := by
  unfold Output.save at saved
  split at saved
  · cases saved
  · rename_i start made
    have nonempty : output.dir ≠ "" := by
      intro empty
      rw [empty] at made
      cases made
    cases saved
    simp only [Output.writeAll, enabled] at written ⊢
    have landed := diskWriter_eq_ok (Progress.write_landed written)
    have plain := plainName_controllersFile
    exact (Disk.read_write nonempty plain landed plain).trans (if_pos rfl)

/-- For types that are scanned and loaded alike, the bundle of controllers that is written lists
methods in strictly ascending order, all of them stored actions, and of the stored actions just
those that are not the entry of an endpoint that survived. -/
theorem save_lists_controllers (types : List CompiledType) (source : Disk) (store : BodyStore)
    (fresh : store.infos = []) (output : Output) (bodies : Bodies)
    (enabled : output.bodies = some bodies) (loaded : bodies.store = (store.load source types).1) :
    let registry := (({} : EndpointRegistry).scan types).1
    let bundle :=
      bodies.controllersValue output.graph (registry.endpoints.mergeSort fun a b => a.key ≤ b.key)
      registry.controllers
    (∀ disk disk' log report,
      output.save registry.endpoints registry.controllers disk = (disk', log, .ok report) →
      joinPath output.dir controllersFile ∉ report.failed →
        disk'.read (joinPath output.dir controllersFile) =
        .ok (Text.encodeUtf8 bundle.toText.toList)) ∧
    (listedControllers bundle).Pairwise (· < ·) ∧
    (∀ id info, bodies.store.infos.get? id = some info → ControllerAction types info →
      Xor (∃ endpoint, Survives (types.flatMap declaredEndpoints) endpoint ∧ endpoint.entry = id)
        (id ∈ listedControllers bundle)) ∧
    ∀ id ∈ listedControllers bundle, ∃ info, bodies.store.infos.get? id = some info ∧
      ControllerAction types info := by
  intro registry bundle
  have keyed : bodies.store.infos.KeyedBy Project.MethodInfo.id := by
    rw [loaded]
    apply BodyStore.load_keyed
    rw [fresh]
    exact .empty
  have listed : listedControllers bundle = _ :=
    listedControllers_controllersValue bodies output.graph _ _
  have member (info : Project.MethodInfo) := mem_unmappedMethods_scan keyed types info
  refine ⟨?_, ?_, ?_, ?_⟩
  · intro disk disk' log report saved written
    exact read_controllersFile enabled saved written
  · rw [listed, List.pairwise_map]
    exact (BodyStore.strict_controllerMethods keyed _).filter _
  · intro id info found action
    have own : info.id = id := keyed.own _ (Table.mem_of_get? found)
    subst own
    rw [listed, xor_iff_iff_not, List.mem_map]
    constructor
    · intro mapped present
      obtain ⟨other, here, same⟩ := present
      exact ((member other).mp here).2 (same ▸ mapped)
    · intro unlisted
      by_contra unmapped
      exact unlisted ⟨info, (member info).mpr ⟨⟨found, action⟩, unmapped⟩, rfl⟩
  · intro id present
    rw [listed] at present
    obtain ⟨info, here, rfl⟩ := List.mem_map.mp present
    exact ⟨info, ((member info).mp here).1⟩

/-- Of two methods of one controller with the same key the later has the endpoint; the other
controller is one by its name alone. -/
def shopControllers : List CompiledType :=
  [{ name := "shop.Home", path := "Home.class", access := 33, superName := none, interfaces := []
     annotations := [{ type := "web.RestController", values := [], visible := true }]
     methods := [{ name := "<init>", descriptor := "()V", access := 1, code := some [0xB1] },
       { name := "list", descriptor := "()V", access := 1, code := some [0xB1]
         annotations :=
           [{ type := "web.GetMapping", values := [("value", .text "/items")], visible := true }] },
       { name := "items", descriptor := "()V", access := 1, code := some [0xB1]
         annotations := [{ type := "web.GetMapping", values := [("path", .array [.text "/items"])],
                           visible := true }] }] },
   { name := "shop.CartController", path := "CartController.class", access := 33, superName := none,
     interfaces := []
     methods := [{ name := "open", descriptor := "()V", access := 1, code := some [0xB1] },
       { name := "lambda$open$0", descriptor := "()V", access := 0x100A, code := some [0xB1] }] }]

def shopBodies : Bodies := { store := (BodyStore.bareStore.load {} shopControllers).1 }

def shopOutput : Output := { graph := .empty, dir := "out", bodies := some shopBodies }

def shopReport : Report :=
  { endpointsProcessed := 1, endpointsWritten := 1
    written := ["out/full_call_graph.json", "out/GET__items.json",
      "out/GET__items_method_bodies.json", "out/controller_method_bodies.json"] }

def shopInfo (type name : String) : Project.MethodInfo :=
  { id := MethodId.ofOwner ("shop." ++ type) name, name, descriptor := "()V",
    typeName := "shop." ++ type, access := 1
    path := some (type ++ ".class"), body := "    0: RETURN\nMAXSTACK = 0\nMAXLOCALS = 0" }

theorem save_lists_shop : ∃ (bundle : JsonValue) (disk : Disk),
    disk.read "out/controller_method_bodies.json" = .ok (Text.encodeUtf8 bundle.toText.toList) ∧
      (listedControllers bundle).Pairwise (· < ·) ∧ "shop.Home.list" ∈ listedControllers bundle ∧
        "shop.Home.items" ∉ listedControllers bundle ∧
        "shop.CartController.open" ∈ listedControllers bundle := by
  have registered : (({} : EndpointRegistry).scan shopControllers).1.endpoints =
      [⟨"GET", "/items", "shop.Home.items"⟩] := by
    decide +kernel
  have survives (id : MethodId) :
      (∃ endpoint, Survives (shopControllers.flatMap declaredEndpoints) endpoint ∧
      endpoint.entry = id) ↔ "shop.Home.items" = id := by
    simp only [← EndpointRegistry.mem_endpoints_scan, registered, List.mem_singleton,
      exists_eq_left]
  obtain ⟨written, ascends, once, _⟩ :=
    save_lists_controllers shopControllers {} BodyStore.bareStore rfl shopOutput shopBodies rfl rfl
  have outcome : (shopOutput.save (({} : EndpointRegistry).scan shopControllers).1.endpoints
      (({} : EndpointRegistry).scan shopControllers).1.controllers {}).2.2 = .ok shopReport := by
    simp only [Output.save, Output.writeAll, registered, List.mergeSort_singleton]
    decide +kernel
  have path : joinPath shopOutput.dir controllersFile =
      "out/controller_method_bodies.json" := by decide
  have home (name : String) (named : ¬ ['<'] <+: name.toList) :
      ControllerAction shopControllers (shopInfo "Home" name) :=
    ⟨.inl ⟨_, List.mem_cons_self, (by decide : "shop.Home" = "shop." ++ "Home"), _,
      List.mem_cons_self, by decide⟩, named, (by decide : 1 &&& syntheticFlag = 0),
      (by decide : 1 &&& bridgeFlag = 0)⟩
  have cart : ControllerAction shopControllers (shopInfo "CartController" "open") :=
    ⟨.inr (.inr (by decide)), by decide, by decide, by decide⟩
  have stored :
      (shopBodies.store.infos.get? "shop.Home.list", shopBodies.store.infos.get? "shop.Home.items",
      shopBodies.store.infos.get? "shop.CartController.open") =
        (some (shopInfo "Home" "list"), some (shopInfo "Home" "items"),
          some (shopInfo "CartController" "open")) := by
    decide +kernel
  rw [Prod.mk.injEq, Prod.mk.injEq] at stored
  have list := once _ _ stored.1 (home "list" (by decide))
  have items := once _ _ stored.2.1 (home "items" (by decide))
  have byName := once _ _ stored.2.2 cart
  rw [survives, xor_iff_not_iff'] at list items byName
  have listed := list.mp (by decide)
  have listedByName := byName.mp (by decide)
  cases saved : shopOutput.save (({} : EndpointRegistry).scan shopControllers).1.endpoints
      (({} : EndpointRegistry).scan shopControllers).1.controllers {} with
  | mk disk rest =>
    obtain ⟨log, result⟩ := rest
    rw [saved] at outcome
    cases outcome
    have content := written {} disk log shopReport saved List.not_mem_nil
    rw [path] at content
    exact ⟨_, disk, content, ascends, listed, fun present => items.mpr present rfl, listedByName⟩

end Artifact

end CallAtlas
