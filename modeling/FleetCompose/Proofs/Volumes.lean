import FleetCompose.Proofs.BuildContexts

/-!
# Volumes of a model

Named volumes are collected from the entries of the `volumes` of all services. An entry names a
volume if what it mounts is a label and not a path. The mounts of bundled files are always paths,
because the context of a package starts with a slash or a dot: so the volumes of a model are those
that the author has named, in the order of first use.
-/

namespace FleetCompose

/-! ## First uses -/

section FirstUses

variable {α β : Type}

/-- Some entry has the name. -/
def UsedIn (names : α → β → Prop) (entries : List α) (name : β) : Prop :=
  ∃ entry ∈ entries, names entry name

/-- The names of entries, each once and in the order of first use: wherever one reads up to, no name
has been used before those that are listed in front of it. -/
structure FirstUses (names : α → β → Prop) (entries : List α) (used : List β) : Prop where
  nodup : used.Nodup
  mem_iff : ∀ name, name ∈ used ↔ UsedIn names entries name
  ordered : used.Pairwise fun earlier later =>
    ∀ front, front <+: entries → UsedIn names front later → UsedIn names front earlier

/-- A name that is used is used for a first time. -/
theorem UsedIn.exists_first {names : α → β → Prop} {entries : List α} {name : β}
    (used : UsedIn names entries name) :
    ∃ before entry, before ++ [entry] <+: entries ∧ names entry name ∧
      ¬UsedIn names before name := by
  classical
  rcases used with ⟨user, member, named⟩
  cases first : entries.find? fun entry => names entry name with
  | none => exact absurd (decide_eq_true named) (List.find?_eq_none.mp first user member)
  | some entry =>
      rcases List.find?_eq_some_iff_append.mp first with ⟨isName, before, after, split, others⟩
      refine ⟨before, entry, ⟨after, by simp [split]⟩, of_decide_eq_true isName, ?_⟩
      rintro ⟨other, otherMember, otherNamed⟩
      simpa [otherNamed] using others other otherMember

/-- Where an entry has at most one name, there is one list of first uses. -/
theorem FirstUses.unique {names : α → β → Prop} {entries : List α} {used others : List β}
    (single : ∀ {entry first second}, names entry first → names entry second → first = second)
    (uses : FirstUses names entries used) (otherUses : FirstUses names entries others) :
    used = others := by
  have perm : used.Perm others := by
    rw [List.perm_ext_iff_of_nodup uses.nodup otherUses.nodup]
    intro name
    rw [uses.mem_iff, otherUses.mem_iff]
  apply perm.eq_of_pairwise _ uses.ordered otherUses.ordered
  intro first second member _ before after
  rcases ((uses.mem_iff first).mp member).exists_first with
    ⟨front, entry, isPrefix, named, unused⟩
  rcases after _ isPrefix ⟨entry, by simp, named⟩ with ⟨user, userMember, userNamed⟩
  rcases List.mem_append.mp userMember with inFront | isEntry
  · have reached : front <+: entries := (List.prefix_append front [entry]).trans isPrefix
    exact absurd (before front reached ⟨user, inFront, userNamed⟩) unused
  · rw [List.mem_singleton.mp isEntry] at userNamed
    exact single named userNamed

variable [BEq β] [LawfulBEq β]

/-- An item stands in front of another one if it occurs first. -/
theorem pairwise_eraseDups (items : List β) : items.eraseDups.Pairwise fun earlier later =>
    ∀ front, front <+: items → later ∈ front → earlier ∈ front := by
  match items with
  | [] => exact List.Pairwise.nil
  | head :: rest =>
      rw [List.eraseDups_cons, List.pairwise_cons]
      constructor
      · intro later _ front isPrefix member
        rcases List.prefix_cons_iff.mp isPrefix with rfl | ⟨others, rfl, -⟩
        · cases member
        · exact List.mem_cons_self
      · -- Beginnings of the filtered rest are filtered beginnings of the rest.
        have later := pairwise_eraseDups (rest.filter fun item => !item == head)
        apply later.imp_of_mem
        intro first second firstMember secondMember before front isPrefix member
        rcases List.prefix_cons_iff.mp isPrefix with rfl | ⟨others, rfl, inRest⟩
        · cases member
        · have kept := (List.mem_filter.mp (List.mem_eraseDups.mp secondMember)).2
          have apart : second ≠ head := by simpa using kept
          have inOthers := (List.mem_cons.mp member).resolve_left apart
          have reached := before _ (inRest.filter _) (List.mem_filter.mpr ⟨inOthers, kept⟩)
          exact List.mem_cons_of_mem head (List.mem_of_mem_filter reached)
termination_by items.length
decreasing_by exact Nat.lt_succ_of_le (List.length_filter_le _ _)

/-- The first occurrences of what is read from entries are their first uses. -/
theorem firstUses_iff {names : α → β → Prop} {name? : α → Option β}
    (reads : ∀ entry name, names entry name ↔ name? entry = some name) {entries : List α}
    {used : List β} :
    FirstUses names entries used ↔ used = (entries.filterMap name?).eraseDups := by
  have usedIn_iff : ∀ front name, UsedIn names front name ↔ name ∈ front.filterMap name? := by
    intro front name
    simp only [UsedIn, List.mem_filterMap, reads]
  have collected : FirstUses names entries (entries.filterMap name?).eraseDups := by
    refine ⟨nodup_eraseDups _, ?_, ?_⟩
    · intro name
      rw [List.mem_eraseDups, usedIn_iff]
    · apply (pairwise_eraseDups _).imp
      intro earlier later before front isPrefix
      rw [usedIn_iff, usedIn_iff]
      exact before _ (isPrefix.filterMap name?)
  constructor
  · intro uses
    refine uses.unique ?_ collected
    intro entry first second firstNamed secondNamed
    rw [reads] at firstNamed secondNamed
    exact Option.some.inj (firstNamed.symm.trans secondNamed)
  · rintro rfl
    exact collected

end FirstUses

/-! ## Labels -/

namespace Volume

/-- A source that is a label: it has no slash and does not start like a path or a variable. -/
structure IsLabel (source : String) : Prop where
  nonempty : source ≠ ""
  slashFree : '/' ∉ source.toList
  head : ∀ c ∈ source.toList.head?, c ≠ '.' ∧ c ≠ '~' ∧ c ≠ '$'

/-- An entry names a volume: a text in front of its first colon, or a mapping of type `volume` in
its source. -/
inductive Names : Yaml.Value → String → Prop where
  | short {mount source target : String}
      (parts : mount.toList = source.toList ++ ':' :: target.toList)
      (colonFree : ':' ∉ source.toList) (label : IsLabel source) : Names (.string mount) source
  | long {entries : List (Yaml.Value × Yaml.Value)} {kind place : Yaml.Value} {source : String}
      (typed : Yaml.Value.lookupText "type" entries = some kind)
      (kind_eq : kind.innerString? = some "volume")
      (sourced : Yaml.Value.lookupText "source" entries = some place)
      (place_eq : place.innerString? = some source) (label : IsLabel source) :
      Names (.mapping entries) source

/-- The entries of a field that is a list. -/
def entries : Option Yaml.Value → List Yaml.Value
  | some (.sequence items) => items
  | _ => []

/-- The entries of the `volumes` among fields. -/
def mounts (fields : Fields) : List Yaml.Value := entries (fields.get? "volumes")

theorem isLabel_iff {source : String} : isLabel source = true ↔ IsLabel source := by
  have empty_iff : source = "" ↔ source.toList = [] := by
    rw [← String.toList_inj]
    rfl
  rw [isLabel]
  cases chars : source.toList with
  | nil =>
      have empty := empty_iff.mpr chars
      constructor
      · nofun
      · exact fun label => absurd empty label.nonempty
  | cons c cs =>
      constructor
      · intro label
        simp only [Bool.and_eq_true, bne_iff_ne, Bool.not_eq_true', List.contains_eq_mem,
          decide_eq_false_iff_not] at label
        refine ⟨?_, ?_, ?_⟩
        · rw [ne_eq, empty_iff, chars]
          exact List.cons_ne_nil c cs
        · rw [chars]
          exact label.2
        · intro first isFirst
          rw [chars] at isFirst
          cases isFirst
          exact ⟨label.1.1.1, label.1.1.2, label.1.2⟩
      · intro label
        have slashFree := label.slashFree
        rcases label.head c (by rw [chars]; rfl) with ⟨dot, tilde, dollar⟩
        rw [chars] at slashFree
        simp [dot, tilde, dollar, slashFree]

theorem guarded_isLabel_iff {source label : String} :
    (if isLabel source then some source else none) = some label ↔
      IsLabel source ∧ source = label := by
  rw [← isLabel_iff]
  simp

theorem longLabel?_eq_some_iff {entries : List (Yaml.Value × Yaml.Value)} {label : String} :
    longLabel? entries = some label ↔ Names (.mapping entries) label := by
  rw [longLabel?]
  constructor
  · intro found
    dsimp only at found
    split at found
    next source typed sourced =>
      rcases Option.bind_eq_some_iff.mp typed with ⟨kind, kindAt, kind_eq⟩
      rcases Option.bind_eq_some_iff.mp sourced with ⟨place, placeAt, place_eq⟩
      rcases guarded_isLabel_iff.mp found with ⟨isLabel, rfl⟩
      exact .long kindAt kind_eq placeAt place_eq isLabel
    next => cases found
  · intro named
    cases named with
    | long kindAt kind_eq placeAt place_eq label =>
        simp only [kindAt, placeAt, Option.bind_some, kind_eq, place_eq]
        exact guarded_isLabel_iff.mpr ⟨label, rfl⟩

/-- The label of an entry is the volume that it names. -/
theorem names_iff (entry : Yaml.Value) (label : String) :
    Names entry label ↔ label? entry = some label := by
  constructor
  · intro named
    cases named with
    | short parts colonFree isLabel =>
        rw [label?, Text.splitFirst_eq_some_iff.mpr ⟨parts, colonFree⟩]
        exact guarded_isLabel_iff.mpr ⟨isLabel, rfl⟩
    | long kindAt kind_eq placeAt place_eq isLabel =>
        exact longLabel?_eq_some_iff.mpr (.long kindAt kind_eq placeAt place_eq isLabel)
  · intro found
    cases entry with
    | string mount =>
        rw [label?] at found
        split at found
        next source target cut =>
          rcases Text.splitFirst_eq_some_iff.mp cut with ⟨parts, colonFree⟩
          rcases guarded_isLabel_iff.mp found with ⟨isLabel, rfl⟩
          exact .short parts colonFree isLabel
        next => cases found
    | mapping entries => exact longLabel?_eq_some_iff.mp found
    | _ => cases found

theorem labels_eq (field : Option Yaml.Value) : labels field = (entries field).filterMap label? := by
  cases field with
  | none => rfl
  | some value => cases value <;> rfl

theorem usedBy_eq (service : Service) :
    usedBy service = (mounts service.fields).filterMap label? :=
  labels_eq (service.fields.get? "volumes")

/-- Volumes are collected from the entries of all services. -/
theorem firstUses_collect_iff (services : List Service) (used : List String) :
    FirstUses Names (services.flatMap fun service => mounts service.fields) used ↔
      used = collect services := by
  rw [firstUses_iff names_iff, List.filterMap_flatMap, collect, ← funext usedBy_eq]

/-! ## Bundled files -/

/-- A context starts with a slash or a dot. -/
theorem head?_context (path service : String) :
    ∃ c ∈ ['/', '.'], (PackageBuild.context path service).toList.head? = some c := by
  rcases PackageBuild.context_cases path service with ⟨same, starts⟩ | ⟨dotted, -⟩
  · rwa [same]
  · rw [dotted]
    exact ⟨'.', by simp, by simp⟩

/-- A mount from a context names no volume, whatever stands in its path. -/
theorem not_names_mount (path service rest label : String) :
    ¬Names (.string (PackageBuild.context path service ++ rest)) label := by
  intro named
  generalize whole : PackageBuild.context path service ++ rest = mount at named
  cases named with
  | short parts colonFree isLabel =>
      cases chars : label.toList with
      | nil => exact isLabel.nonempty (String.toList_inj.mp chars)
      | cons c cs =>
          rw [← whole, String.toList_append, chars] at parts
          have heads := congrArg List.head? parts
          rw [List.head?_append, List.cons_append, List.head?_cons] at heads
          rcases head?_context path service with ⟨first, member, starts⟩
          rw [starts] at heads
          cases heads
          simp only [List.mem_cons, List.not_mem_nil, or_false] at member
          rcases member with rfl | rfl
          · exact isLabel.slashFree (chars ▸ List.mem_cons_self)
          · exact (isLabel.head '.' (by rw [chars]; rfl)).1 rfl

/-- The mounts of a package that is built are files of its context, and none names a volume. -/
theorem exists_mount_of_mem_built {robot : ExpandedRobot} {package : ExpandedPackage}
    {workspace mount : String}
    (member : mount ∈ (PackageBuild.built robot package workspace).volumes) :
    (∃ name container, mount = PackageBuild.context package.path package.service ++ "/files/" ++
      name ++ ":" ++ container) ∧ ∀ label, ¬Names (.string mount) label := by
  rcases List.mem_map.mp member with ⟨file, -, rfl⟩
  simp only [PackageBuild.filePlace, String.append_assoc]
  exact ⟨⟨file.name, file.container, rfl⟩, not_names_mount _ _ _⟩

/-! ## Services -/

theorem label?_eq_none {volume : String} (unnamed : ∀ label, ¬Names (.string volume) label) :
    label? (.string volume) = none := by
  rw [Option.eq_none_iff_forall_ne_some]
  intro label found
  exact unnamed label ((names_iff _ _).mpr found)

theorem labels_apply {volume : String} (noLabel : label? (.string volume) = none)
    (declared : Option Yaml.Value) :
    labels (some (Requirement.apply (.member "volumes" volume .null) declared)) =
      labels declared := by
  have alone : labels (some (.sequence [.string volume])) = [] := by
    rw [labels, List.filterMap_cons_none noLabel, List.filterMap_nil]
  cases declared with
  | none => exact alone
  | some value =>
      cases value with
      | null => exact alone
      | sequence items =>
          rw [Requirement.apply]
          split
          · rfl
          · rw [labels, List.filterMap_append, labels]
            change items.filterMap label? ++ [Yaml.Value.string volume].filterMap label? = _
            rw [List.filterMap_cons_none noLabel, List.filterMap_nil, List.append_nil]
      | mapping entries =>
          rw [Requirement.apply]
          split <;> rfl
      | _ => rfl

/-- Required mounts that name no volume leave the volumes of a field as they are. -/
theorem labels_settle_mounts {volumes : List String}
    (unnamed : ∀ volume ∈ volumes, ∀ label, ¬Names (.string volume) label)
    (declared : Option Yaml.Value) :
    labels (Requirement.settle (Requirement.mounts volumes) declared) = labels declared := by
  induction volumes generalizing declared with
  | nil => rfl
  | cons volume rest ih =>
      rw [List.forall_mem_cons] at unnamed
      exact (ih unnamed.2 _).trans (labels_apply (label?_eq_none unnamed.1) declared)

variable (settings : Settings) (robot : ExpandedRobot)

/-- The middleware does not change what is mounted. -/
theorem get?_volumes_of_wiring (draft : Service.Draft) {service : String} {waits : Bool}
    (requirements : draft.requirements = Service.wiring robot service waits)
    (free : draft.generated.get? "volumes" = none) (restart : String) :
    (draft.fields restart).get? "volumes" = draft.declared.get? "volumes" := by
  rw [draft.get?_fields_of_wiring requirements restart (by decide) (by decide), free,
    Option.or_none]

theorem usedBy_master : usedBy ⟨robot.masterService, .master, some robot.id,
    (Service.masterDraft robot).fields settings.restart⟩ =
      labels (robot.extra.get? "volumes") := by
  apply congrArg labels
  apply get?_volumes_of_wiring robot (Service.masterDraft robot) rfl
  simp [Service.masterDraft, Service.textFields, OrderedMap.ofList, OrderedMap.insertAll,
    OrderedMap.get?_insert]

theorem usedBy_ofImage (image : ExpandedImage) :
    usedBy (Service.ofImage robot image settings.restart) =
      labels (image.extra.get? "volumes") := by
  apply congrArg labels
  apply get?_volumes_of_wiring robot (Service.imageDraft robot image) rfl
  simp [Service.imageDraft, Service.textFields, OrderedMap.ofList, OrderedMap.insertAll,
    OrderedMap.get?_insert]

/-- The service of a package mounts its bundled files as well, but they are no volumes. -/
theorem usedBy_builtService (package : ExpandedPackage) :
    usedBy (Model.builtService settings robot package) =
      labels (package.extra.get? "volumes") := by
  have field : (Model.builtService settings robot package).fields.get? "volumes" =
      Requirement.settle
        (Requirement.mounts (PackageBuild.built robot package settings.workspace).volumes)
        (package.extra.get? "volumes") :=
    Service.get?_volumes_ofPackage ..
  rw [usedBy, field]
  exact labels_settle_mounts (fun _ member => (exists_mount_of_mem_built member).2) _

/-- The services of a robot use what their origins declare. -/
theorem flatMap_usedBy_builtServices :
    (Model.builtServices settings robot).flatMap usedBy =
      robot.origins.flatMap fun origin => labels (origin.declared.get? "volumes") := by
  rw [Model.builtServices, ExpandedRobot.origins, List.flatMap_append, List.flatMap_append,
    List.flatMap_append, List.flatMap_append, List.flatMap_map, List.flatMap_map, List.flatMap_map,
    List.flatMap_map]
  simp only [usedBy_ofImage, usedBy_builtService]
  rw [Service.ofMaster]
  cases robot.ros.family with
  | ros1 => simp [usedBy_master]
  | ros2 => rfl

end Volume

/-! ## Documents -/

/-- The entries that the author has put into the `volumes` of the services of robots, and of
globals. A robot without a master has no service for its own fields. -/
def ExpandedFleet.declaredMounts (fleet : ExpandedFleet) : List Yaml.Value :=
  (fleet.robots.flatMap fun robot => robot.origins.flatMap fun origin =>
    Volume.mounts origin.declared) ++
      fleet.globals.flatMap fun global => Volume.mounts global.fields

namespace Model

/-- The volumes of a model are those that the author has named; bundled files, which are mounted
from the contexts of their packages, are none of them. -/
structure NamesVolumes (settings : Settings) (fleet : ExpandedFleet) (model : Model) : Prop where
  volumes : FirstUses Volume.Names fleet.declaredMounts model.volumes
  bundled : ∀ robot ∈ fleet.robots, ∀ package ∈ robot.packages,
    ∃ build, PackageBuild.ofPackage robot package settings.workspace = .ok build ∧
      ∀ mount ∈ build.volumes,
        (∃ name container, mount = PackageBuild.context package.path package.service ++
          "/files/" ++ name ++ ":" ++ container) ∧
        ∀ label, ¬Volume.Names (.string mount) label

theorem volumes_built (settings : Settings) (fleet : ExpandedFleet) :
    (built settings fleet).volumes =
      (fleet.declaredMounts.filterMap Volume.label?).eraseDups := by
  have collected : (built settings fleet).volumes =
      Volume.collect (built settings fleet).services :=
    rfl
  rw [collected, Volume.collect, services_built, ExpandedFleet.declaredMounts,
    List.flatMap_append, List.filterMap_append, List.flatMap_assoc, List.flatMap_map,
    List.filterMap_flatMap, List.filterMap_flatMap]
  simp only [List.filterMap_flatMap, Volume.flatMap_usedBy_builtServices, Volume.usedBy_eq,
    Volume.mounts, Volume.labels_eq]
  rfl

end Model

/-- Collected volumes are the first uses of the labels in the entries of services. Mounts from
contexts have no labels, and the volumes of a compiled document are the author's. -/
theorem Volume.collects (services : List Service) (settings : Settings) (doc : Document)
    (model : Model) :
    (∀ used, FirstUses Names (services.flatMap fun service => mounts service.fields) used ↔
      used = collect services) ∧
    (∀ path service name container label, ¬Names (.string
      (PackageBuild.context path service ++ "/files/" ++ name ++ ":" ++ container)) label) ∧
    ((doc.toModel settings).outcome = .ok model →
      ∃ fleet, (doc.toExpanded settings).outcome = .ok fleet ∧
        model.NamesVolumes settings fleet) := by
  refine ⟨firstUses_collect_iff services, ?_, ?_⟩
  · intro path service name container label
    simp only [String.append_assoc]
    exact not_names_mount _ _ _ _
  · intro compiled
    rcases Document.toModel_eq_ok_iff.mp compiled with ⟨wellFormed, bound, builds, rfl⟩
    refine ⟨_, Document.toExpanded_eq_ok_iff.mpr ⟨wellFormed, bound, rfl⟩, ?_, ?_⟩
    · rw [firstUses_iff names_iff]
      exact Model.volumes_built settings _
    · intro robot robotMember package packageMember
      rcases builds robot robotMember package packageMember with ⟨build, built⟩
      rcases PackageBuild.ofPackage_eq_ok_iff.mp built with ⟨-, rfl⟩
      exact ⟨_, built, fun mount member => exists_mount_of_mem_built member⟩

/-- Packages with a colon in their path, and an image and a global that mount volumes, files and a
volume in the long form. -/
def Document.shelved : Document where
  areas := some [⟨some "yard", some ["carrier"]⟩]
  robots := [⟨some "carrier", some "humble:2", some ["camera"], some ["driver"], none, .empty⟩]
  images := [⟨some "camera", some "camera:1",
    .ofList [("volumes", .sequence [.string "./calibration:/etc/camera", .string "/dev",
      .mapping [(.string "type", .string "volume"), (.string "source", .string "frames")],
      .string "logs:/var/log"])]⟩]
  packages := [⟨some "driver", some "maps:v2", some "drive", some ["git"], none, none, none,
    some ["config/map.yaml:/etc/map.yaml"], .ofList [("volumes", .sequence [.string "logs:/logs"])]⟩]
  globals := [⟨some "broker",
    .ofList [("volumes", .sequence [.string "store:/var/lib", .string "frames:/frames:ro"])]⟩]

/-- The frames are used first, then the logs, and the store of the global. -/
theorem Volume.shelved_collects :
    ∃ model fleet, (Document.shelved.toModel .standard).outcome = .ok model ∧
      (Document.shelved.toExpanded .standard).outcome = .ok fleet ∧
      model.volumes = ["frames", "logs", "store"] ∧ model.NamesVolumes .standard fleet := by
  have ran : ((Document.shelved.toModel .standard).outcome.toOption.map Model.volumes) =
      some ["frames", "logs", "store"] := by
    decide +kernel
  rcases exists_ok_of_map_eq_some ran with ⟨model, compiled, volumes⟩
  rcases (Volume.collects model.services .standard Document.shelved model).2.2 compiled with
    ⟨fleet, expands, named⟩
  exact ⟨model, fleet, compiled, expands, volumes, named⟩

end FleetCompose
