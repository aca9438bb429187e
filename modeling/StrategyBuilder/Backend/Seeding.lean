import Mathlib.Algebra.Order.BigOperators.Group.List
import Mathlib.Algebra.Order.Group.Nat
import StrategyBuilder.Lib.Js
import StrategyBuilder.Lib.Upsert

/-!
# Seeding the catalog

`main` of `prisma/seed.ts` with `recipe-validation.ts`: the step types of the deployed contracts, and
the recipes that go with them. Both are written by upserts, step types by contract and selector, recipes
by their own key; step types that were not written are deleted, unless nothing is deployed. The tokens
of the protocols and the messages are left out. `Json` is the type of a JSON column, `propertyNames` are
the keys of `properties` in a parameter schema.

A step type is seeded from any contents of the table, those of a seeding that was interrupted among them
(`seed_stepTypes`). Its id goes with the contract and the selector, not with the name. A recipe is
checked against names, not ids; so what a delivered recipe names is in the table (`seed_recipes`).
-/

set_option autoImplicit false

namespace StrategyBuilder.Backend.Seeding

open StrategyBuilder.Lib
open StrategyBuilder.Lib.Js

variable {Id Json : Type}

/-! ## Step types -/

/-- The address of a contract that is not deployed. -/
def zeroAddress : String := "0x0000000000000000000000000000000000000000"

/-- An entry of `STEP_TYPE_CATALOG`. -/
structure StepTypeDef (Json : Type) where
  name : String
  description : String
  category : String
  contractKey : String
  selector : String
  afterExecutionSelector : Option String
  abiFragment : Json
  paramSchema : Json
deriving DecidableEq

/-- The columns of `StepType`, but for its id and times. -/
structure StepTypeData (Json : Type) where
  name : String
  description : String
  category : String
  contractAddress : String
  selector : String
  afterExecutionSelector : Option String
  abiFragment : Json
  paramSchema : Json
deriving DecidableEq

/-- `@@unique([contractAddress, selector])` -/
def StepTypeData.key (s : StepTypeData Json) : String × String := (s.contractAddress, s.selector)

/-- `update` and `create` of the upsert. -/
def stepTypeMerge : Store.Merge (@StepTypeData.key Json) where
  write old s := { old with
    name := s.name
    description := s.description
    category := s.category
    afterExecutionSelector := s.afterExecutionSelector
    abiFragment := s.abiFragment
    paramSchema := s.paramSchema }
  key_write _ _ := rfl
  write_eq {old d} h := by
    obtain ⟨haddress, hselector⟩ := Prod.mk.inj h
    simp only [haddress, hselector]

/-- The step types, one for each contract and selector. -/
abbrev StepTypeTable (Id Json : Type) : Type := Store Id (@StepTypeData.key Json)

/-- `stepTypes`: the catalog at the addresses of a deployment. -/
def stepTypes (catalog : List (StepTypeDef Json)) (addresses : String → Option String) :
    List (StepTypeData Json) :=
  catalog.map fun s =>
    { name := s.name
      description := s.description
      category := s.category
      contractAddress := (addresses s.contractKey).getD zeroAddress
      selector := s.selector
      afterExecutionSelector := s.afterExecutionSelector
      abiFragment := s.abiFragment
      paramSchema := s.paramSchema }

/-- Without those whose contract is not deployed. -/
def deployed (catalog : List (StepTypeDef Json)) (addresses : String → Option String) :
    List (StepTypeData Json) :=
  (stepTypes catalog addresses).filter fun s => s.contractAddress ≠ zeroAddress

/-! ## Recipes -/

/-- A node of a recipe names its step type. -/
structure RecipeNode (Json : Type) where
  id : String
  stepType : String
  params : Option (Record Json)
deriving DecidableEq

/-- An edge of a recipe. -/
structure RecipeEdge where
  source : String
  target : String
  sourceHandle : Option String
deriving DecidableEq

/-- The graph of a recipe. -/
structure RecipeShape (Json : Type) where
  nodes : List (RecipeNode Json)
  edges : List RecipeEdge
deriving DecidableEq

/-- A recipe of `RECIPES`, and the columns of its row. -/
structure RecipeDefinition (Json : Type) where
  key : String
  name : String
  description : String
  category : String
  shape : RecipeShape Json
deriving DecidableEq

/-- `update` and `create` of the upsert. -/
def recipeMerge : Store.Merge (@RecipeDefinition.key Json) where
  write old recipe := { old with
    name := recipe.name
    description := recipe.description
    category := recipe.category
    shape := recipe.shape }
  key_write _ _ := rfl
  write_eq {old d} h := by
    simp only [h]

/-- The recipes, one for each key. -/
abbrev RecipeTable (Id Json : Type) : Type := Store Id (@RecipeDefinition.key Json)

/-- `Object.keys(node.params ?? {})` -/
def RecipeNode.paramKeys (node : RecipeNode Json) : List String := (node.params.getD []).map Prod.fst

section Validation

variable (propertyNames : Json → List String)

/-- `buildCatalog`: the names of the parameters under the name of the step type; of two step types of
one name the last counts. -/
def buildCatalog (stepTypes : List (StepTypeData Json)) : Map String (List String) :=
  Map.ofEntries (stepTypes.map fun s => (s.name, propertyNames s.paramSchema))

/-- The errors of one node. -/
def nodeErrors (catalog : Map String (List String)) (node : RecipeNode Json) : List String :=
  match catalog node.stepType with
  | none => ["unknown step type \"" ++ node.stepType ++ "\""]
  | some allowedParams =>
      (node.paramKeys.filter fun key => key ∉ allowedParams).map fun key =>
        "param drift: \"" ++ node.stepType ++ "\" has no parameter \"" ++ key ++ "\""

/-- The errors of one edge. -/
def edgeErrors (nodeIds : List String) (edge : RecipeEdge) : List String :=
  (if edge.source ∉ nodeIds then ["edge source \"" ++ edge.source ++ "\" is not a node"] else []) ++
    if edge.target ∉ nodeIds then ["edge target \"" ++ edge.target ++ "\" is not a node"] else []

/-- `validateRecipeShape`: the errors of all nodes and edges. -/
def validateRecipeShape (shape : RecipeShape Json) (catalog : Map String (List String)) : List String :=
  shape.nodes.flatMap (nodeErrors catalog) ++
    shape.edges.flatMap (edgeErrors (shape.nodes.map RecipeNode.id))

/-- Every step type that a shape names is in the table, with the parameters that it sets, and every edge
joins two of its nodes. -/
def Usable (t : StepTypeTable Id Json) (shape : RecipeShape Json) :
    Prop :=
  (∀ node ∈ shape.nodes, ∃ r ∈ t, r.data.name = node.stepType ∧
      ∀ key ∈ node.paramKeys, key ∈ propertyNames r.data.paramSchema) ∧
    ∀ edge ∈ shape.edges, (∃ node ∈ shape.nodes, node.id = edge.source) ∧
      ∃ node ∈ shape.nodes, node.id = edge.target

variable {propertyNames}

/-- A node has no errors if its step type is known and has all its parameters. -/
theorem nodeErrors_eq_nil {catalog : Map String (List String)} {node : RecipeNode Json} :
    nodeErrors catalog node = [] ↔
      ∃ allowedParams, catalog node.stepType = some allowedParams ∧
        ∀ key ∈ node.paramKeys, key ∈ allowedParams := by
  rw [nodeErrors]
  cases hallowed : catalog node.stepType with
  | none => simp
  | some allowedParams =>
    dsimp only
    rw [List.map_eq_nil_iff, List.filter_eq_nil_iff]
    constructor
    · intro h
      refine ⟨allowedParams, rfl, fun key hkey => ?_⟩
      by_contra hno
      exact h key hkey (decide_eq_true hno)
    · rintro ⟨_, heq, h⟩ key hkey hno
      cases heq
      exact of_decide_eq_true hno (h key hkey)

theorem edgeErrors_eq_nil {nodeIds : List String} {edge : RecipeEdge} :
    edgeErrors nodeIds edge = [] ↔ edge.source ∈ nodeIds ∧ edge.target ∈ nodeIds := by
  rw [edgeErrors, List.append_eq_nil_iff]
  by_cases hsource : edge.source ∈ nodeIds
  · by_cases htarget : edge.target ∈ nodeIds
    · simp [hsource, htarget]
    · simp [htarget]
  · simp [hsource]

/-- A recipe that passes the check can be used with the step types it is checked against. -/
theorem usable_of_valid {t : StepTypeTable Id Json} {seeded : List (StepTypeData Json)}
    (ht : ∀ s ∈ seeded, ∃ id, ⟨id, s⟩ ∈ t) {shape : RecipeShape Json}
    (h : validateRecipeShape shape (buildCatalog propertyNames seeded) = []) :
    Usable propertyNames t shape := by
  obtain ⟨hnodes, hedges⟩ := List.append_eq_nil_iff.1 h
  constructor
  · intro node hnode
    obtain ⟨allowedParams, hallowed, hparams⟩ :=
      nodeErrors_eq_nil.1 (List.flatMap_eq_nil_iff.1 hnodes node hnode)
    obtain ⟨s, hs, heq⟩ := List.mem_map.1 (Map.mem_of_ofEntries hallowed)
    obtain ⟨hname, hproperties⟩ := Prod.mk.inj heq
    obtain ⟨id, hrow⟩ := ht s hs
    refine ⟨_, hrow, hname, ?_⟩
    rw [← hproperties] at hparams
    exact hparams
  · intro edge hedge
    obtain ⟨hsource, htarget⟩ := edgeErrors_eq_nil.1 (List.flatMap_eq_nil_iff.1 hedges edge hedge)
    exact ⟨List.mem_map.1 hsource, List.mem_map.1 htarget⟩

end Validation

/-! ## Seeding -/

/-- The two tables that the seeding writes. -/
structure Database (Id Json : Type) where
  stepTypes : StepTypeTable Id Json
  recipes : RecipeTable Id Json

/-- What a seeding works with: the curated catalog and recipes, and the addresses of the deployment. -/
structure Deployment (Json : Type) where
  catalog : List (StepTypeDef Json)
  recipes : List (RecipeDefinition Json)
  addresses : String → Option String
  propertyNames : Json → List String

/-- The rows of the catalog whose contract has an address. -/
def Deployment.deployed (deployment : Deployment Json) : List (StepTypeData Json) :=
  Seeding.deployed deployment.catalog deployment.addresses

/-- The recipes that are not skipped. -/
def Deployment.delivered (deployment : Deployment Json) : List (RecipeDefinition Json) :=
  deployment.recipes.filter fun recipe =>
    validateRecipeShape recipe.shape (buildCatalog deployment.propertyNames deployment.deployed) = []

/-- The ids that the database hands out. -/
structure Ids (Id Json : Type) where
  stepType : Store.Fresh Id (@StepTypeData.key Json)
  recipe : Store.Fresh Id (@RecipeDefinition.key Json)

variable [DecidableEq Id]

/-- `main` -/
def seed (ids : Ids Id Json) (deployment : Deployment Json) (db : Database Id Json) :
    Database Id Json where
  -- stale rows without a contract are dropped first, those of other deployments at the end
  stepTypes := Store.sync ids.stepType stepTypeMerge deployment.deployed
    (db.stepTypes.filter fun r => r.data.contractAddress ≠ zeroAddress)
  recipes := (Store.upsertAll ids.recipe recipeMerge deployment.delivered db.recipes).1

section Seed

variable {ids : Ids Id Json} {deployment : Deployment Json} {db : Database Id Json}

theorem address_of_lookup {key : String × String} {s : StepTypeData Json}
    (h : Keyed.lookup StepTypeData.key deployment.deployed key = some s) : key.1 ≠ zeroAddress := by
  obtain ⟨hmem, rfl⟩ := Keyed.mem_of_lookup h
  exact of_decide_eq_true (List.mem_filter.1 hmem).2

/-- A row of a key that is seeded keeps its id. -/
theorem seed_keeps_id (hdeployed : deployment.deployed ≠ []) {r : Stored Id (StepTypeData Json)}
    (hr : r ∈ db.stepTypes) {s : StepTypeData Json}
    (h : Keyed.lookup StepTypeData.key deployment.deployed r.data.key = some s) :
    ⟨r.id, s⟩ ∈ (seed ids deployment db).stepTypes := by
  obtain ⟨-, -, hkeeps⟩ := Store.mem_sync ids.stepType stepTypeMerge
    (db.stepTypes.filter fun r => r.data.contractAddress ≠ zeroAddress) hdeployed
  refine hkeeps r (Store.mem_filter.2 ⟨hr, ?_⟩) s h
  exact decide_eq_true (address_of_lookup h)

/-- The rows of a seeding are the deployed step types. -/
theorem seed_rows (hdeployed : deployment.deployed ≠ []) (s : StepTypeData Json) :
    (∃ id, ⟨id, s⟩ ∈ (seed ids deployment db).stepTypes) ↔
      Keyed.lookup StepTypeData.key deployment.deployed s.key = some s := by
  obtain ⟨hsound, hcomplete, -⟩ := Store.mem_sync ids.stepType stepTypeMerge
    (db.stepTypes.filter fun r => r.data.contractAddress ≠ zeroAddress) hdeployed
  constructor
  · rintro ⟨id, hrow⟩
    exact hsound _ hrow
  · exact hcomplete s.key s

/-- **What a seeding makes of the step types**, whatever was in the table: the deployed ones, of each
contract and selector the last; a row that had the contract and the selector keeps its id; and to seed
once more changes nothing. -/
theorem seed_stepTypes (ids : Ids Id Json) (deployment : Deployment Json) (db : Database Id Json)
    (hdeployed : deployment.deployed ≠ []) :
    (∀ s, (∃ id, ⟨id, s⟩ ∈ (seed ids deployment db).stepTypes) ↔
        Keyed.lookup StepTypeData.key deployment.deployed s.key = some s) ∧
      (∀ r ∈ db.stepTypes, ∀ s, Keyed.lookup StepTypeData.key deployment.deployed r.data.key = some s →
        ⟨r.id, s⟩ ∈ (seed ids deployment db).stepTypes) ∧
      ∀ r, r ∈ (seed ids deployment (seed ids deployment db)).stepTypes ↔
        r ∈ (seed ids deployment db).stepTypes := by
  refine ⟨seed_rows hdeployed, fun r hr s => seed_keeps_id hdeployed hr, fun r => ?_⟩
  have hagain {r : Stored Id (StepTypeData Json)} (hr : r ∈ (seed ids deployment db).stepTypes) :
      r ∈ (seed ids deployment (seed ids deployment db)).stepTypes :=
    seed_keeps_id hdeployed hr ((seed_rows hdeployed r.data).1 ⟨r.id, hr⟩)
  constructor
  · intro hr
    -- the row of this content after the first seeding is still there, and has the same key
    have hlookup := (seed_rows hdeployed r.data).1 ⟨r.id, hr⟩
    obtain ⟨id, hrow⟩ := (@seed_rows _ _ _ ids _ db hdeployed r.data).2 hlookup
    rw [Store.eq_of_key hr (hagain hrow) rfl]
    exact hrow
  · exact hagain

/-- The next number is an id that no row has. -/
def nextId {Data Key : Type} (key : Data → Key) : Store.Fresh Nat key := fun t =>
  ⟨(t.table.rows.map Stored.id).sum + 1, fun r hr heq => by
    have hle : r.id ≤ (t.table.rows.map Stored.id).sum :=
      List.single_le_sum (fun _ _ => Nat.zero_le _) _ (List.mem_map_of_mem hr)
    omega⟩

/-- The next free number is the id of a new row. -/
def sampleIds : Ids Nat (List String) := ⟨nextId _, nextId _⟩

/-- The catalog holds the interval only; a schema is the names of its properties. -/
def sampleDeployment : Deployment (List String) where
  catalog := [⟨"Interval Condition", "", "CONDITION", "IntervalCondition", "0xd89f1e36",
    some "0xb2792168", [], ["interval", "startTime", "timeSlot"]⟩]
  recipes := [⟨"interval", "Interval", "", "automation",
    ⟨[⟨"trigger", "Interval Condition", some [("interval", [])]⟩], []⟩⟩]
  addresses key := if key = "IntervalCondition" then
    some "0x5FbDB2315678afecb367f032d93F642f64180aa3" else none
  propertyNames := id

/-- At the address of the interval there was another contract before. -/
def sampleRow : Stored Nat (StepTypeData (List String)) :=
  ⟨7, "Timer Condition", "", "CONDITION", "0x5FbDB2315678afecb367f032d93F642f64180aa3", "0xd89f1e36",
    some "0xb2792168", [], ["delta", "startTime", "timeSlot"]⟩

/-- A step type of another deployment. -/
def otherRow : Stored Nat (StepTypeData (List String)) :=
  ⟨8, "Price Condition", "", "CONDITION", "0xe7f1725E7734CE288F8367e1Bb143E90bb3F0512",
    "0xd89f1e36", none, [], []⟩

/-- The tables before the seeding. -/
def sampleDatabase : Database Nat (List String) where
  stepTypes := ⟨⟨[sampleRow, otherRow], by decide⟩, by decide⟩
  recipes := Store.empty

/-- A catalog that lists the interval twice, first under an old name. -/
def renamedDeployment : Deployment (List String) :=
  { sampleDeployment with
    catalog := ⟨"Every Interval", "", "CONDITION", "IntervalCondition", "0xd89f1e36", none, [],
      ["interval"]⟩ :: sampleDeployment.catalog }

/-- The row keeps its id and is the interval from now on, as it is listed last; there is no row of the
first listing, and none of the other deployment. -/
theorem seed_stepTypes_sample :
    ⟨7, "Interval Condition", "", "CONDITION", "0x5FbDB2315678afecb367f032d93F642f64180aa3",
      "0xd89f1e36", some "0xb2792168", [], ["interval", "startTime", "timeSlot"]⟩ ∈
        (seed sampleIds renamedDeployment sampleDatabase).stepTypes ∧
      renamedDeployment.deployed.map StepTypeData.name = ["Every Interval", "Interval Condition"] ∧
      ∀ s ∈ otherRow.data :: renamedDeployment.deployed.take 1,
        ¬ ∃ id, ⟨id, s⟩ ∈ (seed sampleIds renamedDeployment sampleDatabase).stepTypes := by
  obtain ⟨hrows, hkeeps, -⟩ := seed_stepTypes sampleIds renamedDeployment sampleDatabase (by decide)
  refine ⟨hkeeps sampleRow (List.mem_cons_self ..) _ rfl, rfl, fun s hs => ?_⟩
  rw [hrows]
  rcases List.mem_cons.1 hs with rfl | hs
  · decide
  · rw [List.mem_singleton.1 hs]
    decide

/-- **What a seeding makes of the recipes**, for contracts at addresses of their own: a recipe that
passes the check has a row with its present content, and can be used with the step types that are
seeded; the row of one that fails the check is left as it was, if there was one. -/
theorem seed_recipes (ids : Ids Id Json) (deployment : Deployment Json) (db : Database Id Json)
    (hkeys : (deployment.deployed.map StepTypeData.key).Nodup)
    (hrecipes : (deployment.recipes.map RecipeDefinition.key).Nodup) :
    ∀ recipe ∈ deployment.recipes,
      (recipe ∈ deployment.delivered →
        (∃ id, ⟨id, recipe⟩ ∈ (seed ids deployment db).recipes) ∧
          Usable deployment.propertyNames (seed ids deployment db).stepTypes recipe.shape) ∧
      (recipe ∉ deployment.delivered → ∀ r : Stored Id (RecipeDefinition Json), r.data.key = recipe.key →
        (r ∈ (seed ids deployment db).recipes ↔ r ∈ db.recipes)) := by
  have hdelivered : (deployment.delivered.map RecipeDefinition.key).Nodup :=
    (List.filter_sublist.map _).nodup hrecipes
  intro recipe hrecipe
  constructor
  · intro hmem
    constructor
    · obtain ⟨id, -, hrow⟩ := Store.upsertAll_written ids.recipe recipeMerge db.recipes
        (Keyed.lookup_of_mem hdelivered hmem)
      exact ⟨id, hrow⟩
    · refine usable_of_valid ?_ (of_decide_eq_true (List.mem_filter.1 hmem).2)
      intro s hs
      exact (seed_rows (List.ne_nil_of_mem hs) s).2 (Keyed.lookup_of_mem hkeys hs)
  · intro hskipped r hkey
    have hlookup : Keyed.lookup RecipeDefinition.key deployment.delivered r.data.key = none := by
      refine Keyed.lookup_eq_none.2 fun other hother heq => hskipped ?_
      -- no other recipe has this key
      rw [← List.inj_on_of_nodup_map hrecipes (List.mem_filter.1 hother).1 hrecipe (heq.trans hkey)]
      exact hother
    constructor
    · intro hr
      rcases Store.mem_upsertAll hr with h | ⟨hr, -⟩
      · rw [hlookup] at h
        cases h
      · exact hr
    · exact fun hr => Store.mem_upsertAll_of_mem hr hlookup

theorem seed_recipes_sample :
    Usable id (seed sampleIds sampleDeployment sampleDatabase).stepTypes
      ⟨[⟨"trigger", "Interval Condition", some [("interval", [])]⟩], []⟩ :=
  ((seed_recipes sampleIds sampleDeployment sampleDatabase (by decide) (by decide) _
    (List.mem_singleton_self _)).1 (by decide)).2

end Seed
end StrategyBuilder.Backend.Seeding
