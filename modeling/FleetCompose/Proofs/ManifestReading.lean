import FleetCompose.Proofs.CompletedDelivery
import FleetCompose.Proofs.ManifestLines
import FleetCompose.Proofs.Networks
import FleetCompose.Proofs.ServiceNames

/-!
# Reading manifests back

A manifest is put together from texts that are written one by one. What it says is what a reader of
documents finds in it: the model, unless the version has to be escaped, the last service ends with
a block that keeps its line ends, or a value cannot be read back from what is written for it.
-/

namespace FleetCompose

open Yaml (isQuotable quotedRaw)
open Yaml.Value (spaces entryLines entryText firstPad nodeLines shortKey? spacedLines isLegible
  entriesLegible entryKinds keepsLineEnds entryLines_cons documentText)

/-! ## What a manifest has to say -/

namespace Model

/-- The services with their fields. -/
def serviceEntries (model : Model) : List (Yaml.Value × Yaml.Value) :=
  model.services.map fun service => (.string service.name, Manifest.ofFields service.fields)

/-- The networks, those of areas with a driver. -/
def networkEntries (model : Model) : List (Yaml.Value × Yaml.Value) :=
  model.networks.map fun network => (.string network.name, Manifest.networkBody network)

/-- The volumes, without settings. -/
def volumeEntries (model : Model) : List (Yaml.Value × Yaml.Value) :=
  model.volumes.map fun volume => (.string volume, .mapping [])

/-- The sections of the manifest. -/
def sections (model : Model) : List (Yaml.Value × Yaml.Value) :=
  [(.string "services", .mapping model.serviceEntries),
    (.string "networks", .mapping model.networkEntries)] ++
  if model.volumes.isEmpty then [] else [(.string "volumes", .mapping model.volumeEntries)]

/-- What the manifest of a model has to say. -/
def manifestValue (model : Model) : Yaml.Value :=
  .mapping ((model.version.toList.map fun version => (.string "version", .string version)) ++
    model.sections)

end Model

/-! ## Texts of sections -/

namespace OrderedMap

variable {α β : Type} [DecidableEq α]

theorem put_of_notMem {key : α} {value : β} {entries : List (α × β)}
    (new : key ∉ entries.map Prod.fst) : put key value entries = entries ++ [(key, value)] := by
  induction entries with
  | nil => rfl
  | cons entry entries ih =>
      rw [List.map_cons, List.mem_cons, not_or] at new
      rw [put, if_neg (Ne.symm new.1), ih new.2, List.cons_append]

theorem entries_insertAll {map : OrderedMap α β} {entries : List (α × β)}
    (nodup : ((map.entries ++ entries).map Prod.fst).Nodup) :
    (map.insertAll entries).entries = map.entries ++ entries := by
  induction entries generalizing map with
  | nil => exact (List.append_nil _).symm
  | cons entry entries ih =>
      have new : entry.1 ∉ map.entries.map Prod.fst := by
        intro member
        rw [List.map_append, List.nodup_append] at nodup
        exact nodup.2.2 _ member _ (by simp) rfl
      have inserted : (map.insert entry.1 entry.2).entries = map.entries ++ [entry] :=
        put_of_notMem new
      have rest := @ih (map.insert entry.1 entry.2) (by rw [inserted]; simpa using nodup)
      rw [inserted, List.append_assoc] at rest
      exact rest

/-- Entries with distinct keys are kept as they are. -/
theorem entries_ofList {entries : List (α × β)} (nodup : (entries.map Prod.fst).Nodup) :
    (ofList entries).entries = entries :=
  @entries_insertAll _ _ _ empty entries nodup

end OrderedMap

namespace Manifest

theorem sectionText_eq {entries : List (String × Yaml.Value)}
    (nodup : (entries.map Prod.fst).Nodup) :
    sectionText entries = documentText (entries.map fun (name, body) => (.string name, body)) := by
  rw [sectionText, OrderedMap.entries_ofList nodup]

variable {depth : Nat}

theorem toList_join_indent {entries : List (Yaml.Value × Yaml.Value)}
    (legible : entriesLegible depth entries = true) :
    (String.join ((entries.map fun entry => documentText [entry]).map indent)).toList =
      entryLines (spaces 2) 2 entries := by
  induction entries with
  | nil => rfl
  | cons entry entries ih =>
      obtain ⟨key, value⟩ := entry
      rw [entriesLegible, Bool.and_eq_true] at legible
      have first : entriesLegible depth [(key, value)] = true := by
        rw [entriesLegible, legible.1]
        rfl
      have rest := ih legible.2
      rw [String.toList_join] at rest ⊢
      rw [List.map_cons, List.map_cons, List.flatMap_cons, toList_indent_documentText first, rest,
        entryLines_cons, entryLines_cons, entryLines, List.append_nil, List.append_assoc]

/-- A section is an entry whose value is a mapping that is not empty. -/
theorem entryText_section {name : String} {entry : Yaml.Value × Yaml.Value}
    {entries : List (Yaml.Value × Yaml.Value)}
    (short : shortKey? (.string name) = some name.toList) :
    entryText 0 (.string name) (.mapping (entry :: entries)) =
      name.toList ++ ':' :: '\n' :: entryLines (spaces 2) 2 (entry :: entries) := by
  rw [entryText, short]
  simp only
  rw [nodeLines]
  · rw [entryLines_cons, entryLines_cons]
    rfl
  · exact List.cons_ne_nil _ _

/-- The text of a section whose names are distinct. -/
theorem toList_indent_sectionText {entries : List (String × Yaml.Value)} (nonempty : entries ≠ [])
    (nodup : (entries.map Prod.fst).Nodup)
    (legible : entriesLegible depth (entries.map fun (name, body) => (.string name, body)) = true) :
    (indent (sectionText entries)).toList =
      entryLines (spaces 2) 2 (entries.map fun (name, body) => (.string name, body)) := by
  rw [sectionText_eq nodup]
  cases entries with
  | nil => exact absurd rfl nonempty
  | cons entry entries => exact toList_indent_documentText legible

/-! ## The text of a manifest -/

/-- The names in the sections of a model. -/
structure Sectioned (model : Model) : Prop where
  services_ne : model.services ≠ []
  networks_ne : model.networks ≠ []
  networks_nodup : (model.networks.map Network.name).Nodup
  volumes_nodup : model.volumes.Nodup

theorem spacedLines_sections {model : Model} (sectioned : Sectioned model) :
    spacedLines model.sections =
      "services:\n".toList ++ entryLines (spaces 2) 2 model.serviceEntries ++
        "\nnetworks:\n".toList ++ entryLines (spaces 2) 2 model.networkEntries ++
          if model.volumes.isEmpty then []
          else "\nvolumes:\n".toList ++ entryLines (spaces 2) 2 model.volumeEntries := by
  have services : entryText 0 (.string "services") (.mapping model.serviceEntries) =
      "services:\n".toList ++ entryLines (spaces 2) 2 model.serviceEntries := by
    obtain ⟨first, more, eq⟩ := List.exists_cons_of_ne_nil sectioned.services_ne
    rw [Model.serviceEntries, eq]
    exact entryText_section rfl
  have networks : entryText 0 (.string "networks") (.mapping model.networkEntries) =
      "networks:\n".toList ++ entryLines (spaces 2) 2 model.networkEntries := by
    obtain ⟨first, more, eq⟩ := List.exists_cons_of_ne_nil sectioned.networks_ne
    rw [Model.networkEntries, eq]
    exact entryText_section rfl
  rw [Model.sections]
  cases eq : model.volumes with
  | nil =>
      rw [List.isEmpty_nil, if_pos rfl, List.append_nil, spacedLines, spacedLines, services,
        networks]
      simp
  | cons volume volumes =>
      have volumes : entryText 0 (.string "volumes") (.mapping model.volumeEntries) =
          "volumes:\n".toList ++ entryLines (spaces 2) 2 model.volumeEntries := by
        rw [Model.volumeEntries, eq]
        exact entryText_section rfl
      simp only [List.isEmpty_cons, Bool.false_eq_true, ↓reduceIte, List.cons_append,
        List.nil_append]
      rw [spacedLines, spacedLines, spacedLines, services, networks, volumes]
      simp

theorem toList_assemble {model : Model} {texts : List String} (sectioned : Sectioned model)
    (written : traverse serviceText model.services = .ok texts)
    (legible : entriesLegible (depth + 1) model.sections = true) :
    (assemble model.version texts model.networks model.volumes).toList =
      (versionText model.version).toList ++ spacedLines model.sections := by
  simp only [Model.sections, List.cons_append, List.nil_append, entriesLegible, isLegible,
    Bool.and_eq_true, Nat.add_sub_cancel] at legible
  have services : (String.join (texts.map indent)).toList =
      entryLines (spaces 2) 2 model.serviceEntries := by
    have lines := toList_join_indent legible.1.2.2
    rw [texts_eq_of_traverse written]
    simpa only [Model.serviceEntries, List.map_map, Function.comp_def] using lines
  have networks : (indent (networksText model.networks)).toList =
      entryLines (spaces 2) 2 model.networkEntries := by
    have lines := @toList_indent_sectionText depth
      (model.networks.map fun network => (network.name, networkBody network))
      (by simpa using sectioned.networks_ne)
      (by rw [List.map_map]; exact sectioned.networks_nodup)
      (by rw [List.map_map]; exact legible.2.1.2.2)
    rwa [List.map_map] at lines
  rw [assemble, spacedLines_sections sectioned, String.toList_append, String.toList_append,
    String.toList_append, String.toList_append, String.toList_append, services, networks]
  cases eq : model.volumes with
  | nil => simp
  | cons volume volumes =>
      simp only [eq, List.isEmpty_cons, Bool.false_eq_true, ↓reduceIte, entriesLegible, isLegible,
        Bool.and_eq_true] at legible
      have lines := @toList_indent_sectionText depth
        (model.volumes.map fun volume => (volume, .mapping [])) (by simp [eq])
        (by
          rw [List.map_map]
          exact (List.map_id _).symm ▸ sectioned.volumes_nodup)
        (by rw [List.map_map]; exact legible.2.2.1.2.2)
      rw [List.map_map] at lines
      simp only [List.isEmpty_cons, Bool.false_eq_true, ↓reduceIte, String.toList_append]
      rw [← eq, volumesText, lines]
      simp only [List.append_assoc]
      rfl

theorem toList_versionText {version : String} (nonempty : version ≠ "") :
    (versionText (some version)).toList =
      "version".toList ++ ':' :: ' ' :: (quotedRaw version ++ ['\n']) := by
  rw [versionText, if_neg (by simpa using nonempty)]
  simp [quotedRaw]

/-! ## Reading a manifest -/

theorem keepsLineEnds_networkBody (network : Network) :
    (networkBody network).keepsLineEnds = false := by
  rw [networkBody]
  split <;> decide

theorem entriesKeepLineEnds_eq_false {entries : List (Yaml.Value × Yaml.Value)}
    (unkept : ∀ entry ∈ entries, entry.2.keepsLineEnds = false) :
    Yaml.Value.entriesKeepLineEnds entries = false := by
  induction entries with
  | nil => rfl
  | cons entry entries ih =>
      obtain ⟨first, more⟩ := List.forall_mem_cons.mp unkept
      rw [Yaml.Value.entriesKeepLineEnds]
      split
      · exact first
      · exact ih more

end Manifest

/-- Nothing in a model gets in the way of reading its manifest back. -/
structure Model.IsReadable (model : Model) : Prop where
  version : ∀ version ∈ model.version, version ≠ "" ∧ isQuotable version = true
  legible : model.manifestValue.isLegible Read.depthLimit = true
  services : Yaml.Value.entriesKeepLineEnds model.serviceEntries = false

namespace Manifest

theorem unkept_sections {model : Model} (readable : model.IsReadable) :
    ∀ entry ∈ model.sections.dropLast, entry.2.keepsLineEnds = false := by
  have services : (Yaml.Value.mapping model.serviceEntries).keepsLineEnds = false :=
    readable.services
  have networks : (Yaml.Value.mapping model.networkEntries).keepsLineEnds = false := by
    refine entriesKeepLineEnds_eq_false fun entry member => ?_
    obtain ⟨network, -, rfl⟩ := List.mem_map.mp member
    exact keepsLineEnds_networkBody network
  rw [Model.sections]
  split <;> simp [services, networks]

/-- The manifest of a model says what it has to say. -/
theorem ofSource_assemble {model : Model} {texts : List String} (sectioned : Sectioned model)
    (written : traverse serviceText model.services = .ok texts) (readable : model.IsReadable) :
    Yaml.Value.ofSource (assemble model.version texts model.networks model.volumes) =
      .ok model.manifestValue := by
  have legible := readable.legible
  rw [Model.manifestValue, isLegible, Yaml.Value.entriesLegible_append, Bool.and_eq_true,
    Bool.and_eq_true] at legible
  have sectionsLegible : entriesLegible Yaml.Value.depthBelowRoot model.sections = true :=
    legible.2.2
  have nonempty : model.sections ≠ [] := List.cons_ne_nil _ _
  have unkept := unkept_sections readable
  have text := toList_assemble sectioned written sectionsLegible
  rw [← @String.ofList_toList (assemble _ _ _ _), text, Model.manifestValue]
  cases isVersion : model.version with
  | none => exact Yaml.Value.ofSource_spacedLines nonempty sectionsLegible unkept
  | some version =>
      obtain ⟨given, quotable⟩ := readable.version version isVersion
      have read := @Yaml.Value.ofSource_quotedEntry model.sections "version" version (by decide)
        (by decide) quotable nonempty sectionsLegible unkept
      rw [toList_versionText given]
      simpa using read

end Manifest

/-! ## Documents -/

namespace Document

variable {settings : Settings} {doc : Document}

/-- The robots of an area run something, so some service is needed. -/
theorem WellFormed.serviceNames_ne (wellFormed : doc.WellFormed settings) :
    doc.serviceNames settings ≠ [] := by
  obtain ⟨area, areas, areas_eq⟩ := List.exists_cons_of_ne_nil wellFormed.areas_ne
  have declared : area ∈ doc.areaDecls := by
    rw [areas_eq]
    exact List.mem_cons_self
  have areaWellFormed := wellFormed.areas area declared
  obtain ⟨member, members, members_eq⟩ := List.exists_cons_of_ne_nil areaWellFormed.members_ne
  have isMember : member ∈ area.members := by
    rw [members_eq]
    exact List.mem_cons_self
  obtain ⟨robot, robotDeclared, rfl⟩ :=
    List.mem_map.mp (areaWellFormed.member_declared member isMember)
  have listed : robot ∈ doc.listedRobots := by
    rw [listedRobots, List.mem_filter, decide_eq_true_eq]
    exact ⟨robotDeclared, List.mem_flatMap.mpr ⟨area, declared, isMember⟩⟩
  have needs : robot.serviceNames settings ≠ [] := by
    rw [RobotDecl.serviceNames]
    rcases (wellFormed.robots robot robotDeclared).runs with images | packages
    · simp [images]
    · simp [packages]
  intro none
  rw [serviceNames, List.append_eq_nil_iff, List.flatMap_eq_nil_iff] at none
  exact needs (none.1 robot listed)

/-- The sections of a compiled document have entries with distinct names. -/
theorem sectioned_of_toModel {model : Model}
    (compiled : (doc.toModel settings).outcome = .ok model) : Manifest.Sectioned model := by
  rcases toModel_eq_ok_iff.mp compiled with ⟨wellFormed, -, -, rfl⟩
  have networks : (Model.built settings (doc.fleet settings).copy).networks =
      Network.collect (doc.areaDecls.map AreaDecl.name)
        (Model.built settings (doc.fleet settings).copy).services :=
    congrArg (fun areas => Network.collect areas _) map_id_areas_copy
  exact {
    services_ne := by
      intro none
      have names := wellFormed.map_name_services
      rw [none] at names
      have perm := wellFormed.orderedNames_perm
      rw [← names, List.map_nil, List.nil_perm] at perm
      exact wellFormed.serviceNames_ne perm
    networks_ne := by
      rw [networks, Network.collect_eq]
      simp [wellFormed.areas_ne]
    networks_nodup := by
      rw [networks]
      exact Network.nodup_map_name_collect _ wellFormed.areas_nodup
    volumes_nodup := nodup_eraseDups _ }

theorem exists_manifest_eq {model : Model} {artifacts : Artifacts}
    (rendered : model.toArtifacts.outcome = .ok artifacts) :
    ∃ texts, traverse Manifest.serviceText model.services = .ok texts ∧
      artifacts.manifest =
        Manifest.assemble model.version texts model.networks model.volumes := by
  simp only [Model.toArtifacts, Artifacts.ofModel, Logged.outcome_mapError, Logged.outcome_bind,
    Logged.outcome_ofExcept, Logged.outcome_tell, Logged.outcome_pure, except_bind, ok_bind,
    mapError_eq_ok_iff, bind_eq_ok_iff, Except.ok.injEq, Manifest.ofModel,
    map_eq_ok_iff] at rendered
  obtain ⟨manifest, ⟨texts, written, rfl⟩, rfl⟩ := rendered
  exact ⟨texts, written, rfl⟩

/-- The manifest of a document reads back as the model, if nothing in the model gets in the way of
that. -/
theorem readsBack_of_isReadable {model : Model} {artifacts : Artifacts}
    (compiled : (doc.toModel settings).outcome = .ok model)
    (rendered : model.toArtifacts.outcome = .ok artifacts) (readable : model.IsReadable) :
    Yaml.Value.ofSource artifacts.manifest = .ok model.manifestValue := by
  obtain ⟨texts, written, manifest_eq⟩ := exists_manifest_eq rendered
  rw [manifest_eq]
  exact Manifest.ofSource_assemble (sectioned_of_toModel compiled) written readable

/-- A robot with an image. -/
def pictured : Document where
  areas := some [⟨some "yard", some ["carrier"]⟩]
  robots := [⟨some "carrier", some "humble", some ["camera"], none, none, .empty⟩]
  images := [⟨some "camera", some "lab/camera", .empty⟩]
  packages := []
  globals := []

/-- The same robot; the fields of its image have texts of several lines, a network and a volume. -/
def mounted : Document :=
  { pictured with
    images := [⟨some "camera", some "lab/camera", .ofList [
      ("command", .string "roslaunch camera\n  rate: 30\n\nrostopic list\n"),
      ("networks", .sequence [.string "uplink"]),
      ("volumes", .sequence [.string "maps:/maps:ro"]),
      ("healthcheck", .mapping [(.string "retries", .number (.int 3)), (.string "test", .null)]),
      ("environment", .sequence [.string "NAME=\u00E9t\u00E9", .string "yes", .string "#1"])]⟩] }

/-- A version, and sections for services, networks and volumes. -/
theorem mounted_readsBack :
    ∃ model artifacts,
      (mounted.toModel (.withComposeVersion .standard (some "3.8"))).outcome = .ok model ∧
      model.toArtifacts.outcome = .ok artifacts ∧ model.IsReadable ∧ model.sections.length = 3 ∧
      Yaml.Value.ofSource artifacts.manifest = .ok model.manifestValue := by
  have ran : ((mounted.toModel (.withComposeVersion .standard (some "3.8"))).outcome.toOption.map
      fun model => model.version == some "3.8" && model.manifestValue.isLegible Read.depthLimit &&
        !Yaml.Value.entriesKeepLineEnds model.serviceEntries && model.sections.length == 3 &&
        model.toArtifacts.outcome.toOption.isSome) = some true := by
    decide +kernel
  obtain ⟨model, compiled, viewed⟩ := exists_ok_of_map_eq_some ran
  simp only [Bool.and_eq_true, Bool.not_eq_true', beq_iff_eq] at viewed
  obtain ⟨⟨⟨⟨version, legible⟩, services⟩, three⟩, renders⟩ := viewed
  obtain ⟨artifacts, rendered⟩ := exists_ok_of_isSome renders
  have readable : model.IsReadable := ⟨by rw [version]; decide, legible, services⟩
  exact ⟨model, artifacts, compiled, rendered, readable, three,
    readsBack_of_isReadable compiled rendered readable⟩

/-- Not every manifest can be read back: a quote in the version ends it. -/
theorem not_forall_readsBack :
    ¬∀ (settings : Settings) (doc : Document) (model : Model) (artifacts : Artifacts),
      (doc.toModel settings).outcome = .ok model → model.toArtifacts.outcome = .ok artifacts →
        Yaml.Value.ofSource artifacts.manifest = .ok model.manifestValue := by
  intro always
  let settings := Settings.standard.withComposeVersion (some "3\"8")
  have ran : ((pictured.toModel settings).outcome.toOption.bind fun model =>
      model.toArtifacts.outcome.toOption.map fun artifacts =>
        (Yaml.Value.ofSource artifacts.manifest).toOption.isSome) = some false := by
    decide +kernel
  obtain ⟨model, artifacts, compiled, rendered, unreadable⟩ := exists_artifacts_of_view ran
  rw [always settings pictured model artifacts compiled rendered] at unreadable
  cases unreadable

end Document

end FleetCompose
