import Portex.Memory.Service

/-!
# The memory of groups and of users

The directories of the groups are beside the directory `user-global` of the users, and only the
check of folder names keeps a group out of it. That check does not reserve the name.

## Main definitions

* `GroupCall`, `reached`: a call for a group, and the files it reaches
* `MemoryDisjoint`: nothing that is reached for a folder has to do with the memory of a user
* `Clear`: the folder and the user id lead apart

## Main results

* `prefix_of_mem_reached`: the files that are reached lie in the directory of the group
* `memoryDisjoint_iff`: the folders and user ids that are kept apart
* `read?_run`: calls for a group leave the memory of a user that is kept apart as it is
-/

namespace Portex

open Foundation

namespace MemoryService

/-- A call for a group. -/
inductive GroupCall
  | list
  | search (query : String)
  | get (relativePath : String)
  | update (relativePath content : String)
  | append (content : String)

/-- The files that a call reads or writes. -/
def reached (service : MemoryService) (disk : Disk) (groupFolder : String) :
    GroupCall → List (List Name)
  | .list | .search _ =>
    match service.getGroupMemoryDir groupFolder with
    | .ok memoryDir => (groupMemoryFiles disk memoryDir).map Prod.fst
    | .error _ => []
  | .get relativePath | .update relativePath _ =>
    match service.resolveGroupMemoryFile groupFolder relativePath with
    | .ok (candidate, _) => [candidate.names]
    | .error _ => []
  | .append _ =>
    match service.getDailyMemoryPath groupFolder with
    | .ok dailyMemoryPath => [dailyMemoryPath.names]
    | .error _ => []

/-- The disk after a call. -/
def after (service : MemoryService) (groupFolder : String) (disk : Disk) : GroupCall → Disk
  | .list | .search _ | .get _ => disk
  | .update relativePath content =>
    match service.updateGroupMemoryFile disk groupFolder relativePath content with
    | .ok (_, disk) => disk
    | .error _ => disk
  | .append content =>
    match service.appendDailyMemory disk groupFolder content with
    | .ok disk => disk
    | .error _ => disk

/-- No file that a call for the folder reaches, and no directory that is mounted as the memory of
its container, has to do with the memory file of the user. -/
def MemoryDisjoint (service : MemoryService) (folder userId : String) : Prop :=
  (∀ disk call, ∀ names ∈ service.reached disk folder call,
      Apart names (service.userMemoryPath userId).names) ∧
    ∀ fs mountUserId readonlyMounts volumes,
      buildVolumes fs service.dataDir folder mountUserId readonlyMounts = .ok volumes →
        ∀ volume ∈ volumes, volume.bind = memoryContainerPath →
          Apart volume.hostPath.names (service.userMemoryPath userId).names

/-- As a path, the user id does not leave `user-global`. -/
def StaysBelow (userId : String) : Prop :=
  (PurePath.parse userId).absolute = false ∧ (survivors (PurePath.parse userId).names).1 = 0

instance (userId : String) : Decidable (StaysBelow userId) := inferInstanceAs (Decidable (_ ∧ _))

/-- The folder is not `user-global`; or, for a user id that leaves `user-global`, it leads neither
into the folder nor above the memory root. -/
def Clear (service : MemoryService) (folder userId : String) : Prop :=
  if StaysBelow userId then folder ≠ "user-global"
  else
    ¬ service.memoryRoot.names ++ [folder.toList] <+:
        place (service.memoryRoot.enter "user-global".toList) userId ∧
      ¬ place (service.memoryRoot.enter "user-global".toList) userId ++ ["AGENTS.md".toList] <+:
        service.memoryRoot.names

variable {service : MemoryService} {folder userId : String}

/-! ## The directory of a group -/

theorem names_enter {name : Name} (h : name ≠ parentName) (dir : Directory) :
    (dir.enter name).names = dir.names ++ [name] := by
  rw [Directory.enter, dif_neg h]

theorem getGroupMemoryDir_eq (service : MemoryService)
    (hvalid : Registry.validateWorkspaceFolder folder = .ok ()) :
    ∃ memoryDir, service.getGroupMemoryDir folder = .ok memoryDir ∧
      memoryDir.names = service.memoryRoot.names ++ [folder.toList] := by
  have hplain := plain_of_validateWorkspaceFolder hvalid
  have hnull : '\x00' ∉ folder.toList := by
    obtain ⟨ch, rest, hcons, hch, hrest⟩ := isSlug_iff.mp (isSlug_of_validateWorkspaceFolder hvalid)
    rw [hcons, List.mem_cons, not_or]
    constructor
    · rintro rfl
      exact absurd hch (by decide)
    · intro hmem
      exact absurd (hrest _ hmem) (by decide)
  have hnames := (resolve_names service.memoryRoot folder).trans (place_of_plain hplain _)
  have hcontained : validatePath (service.memoryRoot.toPath.join (.parse folder)).resolve
      [service.memoryRoot] = true := by
    simp [validatePath, hnames]
  refine ⟨_, ?_, hnames⟩
  unfold getGroupMemoryDir
  rw [if_neg hnull]
  exact if_pos hcontained

/-- **The files that are reached** lie in the directory of the group. -/
theorem prefix_of_mem_reached (hvalid : Registry.validateWorkspaceFolder folder = .ok ())
    {disk : Disk} {call : GroupCall} {names : List Name}
    (h : names ∈ service.reached disk folder call) :
    service.memoryRoot.names ++ [folder.toList] <+: names := by
  obtain ⟨memoryDir, hdir, hnames⟩ := getGroupMemoryDir_eq service hvalid
  rw [← hnames]
  have hfiles (hmem : names ∈ (groupMemoryFiles disk memoryDir).map Prod.fst) :
      memoryDir.names <+: names := by
    obtain ⟨file, hfile, rfl⟩ := List.mem_map.mp hmem
    have hfilter := List.mem_mergeSort.mp hfile
    simp only [List.mem_filter, Bool.and_eq_true] at hfilter
    exact List.isPrefixOf_iff_prefix.mp hfilter.2.1.1
  have hresolved {relativePath : String}
      (hmem : names ∈ (match service.resolveGroupMemoryFile folder relativePath with
        | .ok (candidate, _) => [candidate.names]
        | .error _ => [])) : memoryDir.names <+: names := by
    split at hmem
    · rename_i candidate _ hresolve
      rw [List.mem_singleton.mp hmem]
      simp only [resolveGroupMemoryFile, hdir, bind, Except.bind] at hresolve
      split at hresolve
      · cases hresolve
      · split at hresolve
        · cases hresolve
        · split at hresolve
          · rename_i hvalidated
            obtain ⟨rfl, -⟩ := Prod.mk.inj (Except.ok.inj hresolve)
            simpa [validatePath] using hvalidated
          · split at hresolve <;> cases hresolve
    · cases hmem
  cases call with
  | list | search query =>
    simp only [reached, hdir] at h
    exact hfiles h
  | get relativePath => exact hresolved h
  | update relativePath content => exact hresolved h
  | append content =>
    simp only [reached, getDailyMemoryPath, hdir, Except.map, List.mem_singleton] at h
    -- The name of a day holds a hyphen, so it is no `..`.
    have hday : service.today.isoformat ++ ".md".toList ≠ parentName := by
      intro heq
      have hmem : '-' ∈ parentName := heq ▸ by simp [Day.isoformat]
      exact absurd hmem (by decide)
    rw [h, names_enter hday]
    exact List.prefix_append _ _

/-! ## The directory that is mounted -/

theorem isSafePathSegment_of_valid (hvalid : Registry.validateWorkspaceFolder folder = .ok ()) :
    isSafePathSegment folder = true := by
  obtain ⟨ch, rest, hcons, hch, hrest⟩ := isSlug_iff.mp (isSlug_of_validateWorkspaceFolder hvalid)
  simp only [isSafePathSegment, hcons, Bool.and_eq_true, List.all_eq_true,
    isAlphanum_of_isSlugChar hch, true_and]
  intro ch' hmem
  rcases hrest ch' hmem with hslug | rfl
  · simp [isAlphanum_of_isSlugChar hslug]
  · decide

/-- A plain folder is mounted from the directory of its name. -/
theorem scopedDirectory_eq_ok {fs : FileSystem} {root dir : Directory} {label : String}
    (hplain : Plain folder) (h : scopedDirectory fs root folder [] label = .ok dir) :
    dir.names = root.names ++ [folder.toList] := by
  unfold scopedDirectory at h
  split at h
  · cases h
  · simp only at h
    split at h
    · cases h
    · split at h
      · cases h
      · rw [← Except.ok.inj h]
        have hjoin : (root.toPath.join (.parse folder)).join { absolute := false, names := [] } =
            root.toPath.join (.parse folder) := by
          simp [PurePath.join]
        rw [hjoin, resolve_names, place_of_plain hplain]

theorem hostPath_of_memory {fs : FileSystem} {dataRoot : Directory} {mountUserId : String}
    {readonlyMounts : List String} {volumes : List Volume} (hplain : Plain folder)
    (h : buildVolumes fs dataRoot folder mountUserId readonlyMounts = .ok volumes)
    {volume : Volume} (hvolume : volume ∈ volumes) (hbind : volume.bind = memoryContainerPath) :
    volume.hostPath.names = (dataRoot.enter "memory".toList).names ++ [folder.toList] := by
  have hsegment {value label segment : String} (h : validatePathSegment value label = .ok segment) :
      segment = value := by
    unfold validatePathSegment at h
    split at h
    · exact (Except.ok.inj h).symm
    · cases h
  simp only [buildVolumes, bind, Except.bind] at h
  split at h
  · cases h
  · rename_i segment hfolder
    obtain rfl := hsegment hfolder
    split at h
    · cases h
    · split at h
      · cases h
      · split at h
        · cases h
        · rename_i memoryDir hmemory
          have hnames := scopedDirectory_eq_ok hplain hmemory
          split at h
          · cases h
          · split at h
            · cases h
            · split at h
              · cases h
              · rw [← Except.ok.inj h] at hvolume
                simp only [List.mem_cons, List.not_mem_nil, or_false] at hvolume
                rcases hvolume with rfl | rfl | rfl | rfl | rfl
                · exact absurd (show "/home/portex/.claude" = memoryContainerPath from hbind)
                    (by decide)
                · exact hnames
                · exact absurd (show "/workspace/ipc" = memoryContainerPath from hbind) (by decide)
                · exact absurd (show "/workspace/group" = memoryContainerPath from hbind) (by decide)
                · exact absurd (show "/workspace/skills" = memoryContainerPath from hbind)
                    (by decide)

/-- The directory of a plain name, where directories can be made. -/
theorem scopedDirectory_plain {part : String} (hplain : Plain part) (root : Directory)
    {rest : List Name} (hrest : parentName ∉ rest) (label : String) :
    ∃ dir, scopedDirectory ⟨fun _ => true⟩ root part rest label = .ok dir := by
  have hnames : ((root.toPath.join (.parse part)).join
      { absolute := false, names := rest }).resolve.names = root.names ++ [part.toList] ++ rest := by
    show (Directory.root.walk ((root.toPath.join (.parse part)).names ++ rest)).names = _
    rw [Directory.walk_append, Directory.names_walk_of_notMem hrest]
    exact congrArg (· ++ rest) ((resolve_names root part).trans (place_of_plain hplain root))
  have hcontained : validatePath ((root.toPath.join (.parse part)).join
      { absolute := false, names := rest }).resolve [root] = true := by
    simp [validatePath, hnames]
  refine ⟨((root.toPath.join (.parse part)).join { absolute := false, names := rest }).resolve, ?_⟩
  simp [scopedDirectory, hcontained]

/-- The volumes of a folder that can be created, where the directories can be made. -/
theorem exists_volumes (hvalid : Registry.validateWorkspaceFolder folder = .ok ())
    (dataRoot : Directory) : ∃ volumes, buildVolumes ⟨fun _ => true⟩ dataRoot folder "user" [] =
      .ok volumes ∧ ∃ volume ∈ volumes, volume.bind = memoryContainerPath := by
  have hplain := plain_of_validateWorkspaceFolder hvalid
  have huser : Plain "user" := ⟨by decide, by decide, by decide, by decide⟩
  have hsafe : validatePathSegment folder "group_folder" = .ok folder :=
    if_pos (isSafePathSegment_of_valid hvalid)
  have hsafe' : validatePathSegment "user" "user_id" = .ok "user" := if_pos (by decide)
  have hclaude : parentName ∉ [".claude".toList] := by decide
  have hnil : parentName ∉ [] := List.not_mem_nil
  obtain ⟨sessionsDir, hsessions⟩ := scopedDirectory_plain hplain
    (dataRoot.enter "sessions".toList) hclaude "group_folder"
  obtain ⟨memoryDir, hmemory⟩ := scopedDirectory_plain hplain
    (dataRoot.enter "memory".toList) hnil "group_folder"
  obtain ⟨ipcDir, hipc⟩ := scopedDirectory_plain hplain
    (dataRoot.enter "ipc".toList) hnil "group_folder"
  obtain ⟨groupDir, hgroup⟩ := scopedDirectory_plain hplain
    (dataRoot.enter "groups".toList) hnil "group_folder"
  obtain ⟨skillsDir, hskills⟩ := scopedDirectory_plain huser
    (dataRoot.enter "skills".toList) hnil "user_id"
  refine ⟨[⟨sessionsDir, "/home/portex/.claude", .readWrite⟩,
    ⟨memoryDir, memoryContainerPath, .readWrite⟩, ⟨ipcDir, "/workspace/ipc", .readWrite⟩,
    ⟨groupDir, "/workspace/group", .readWrite⟩, ⟨skillsDir, "/workspace/skills", .readOnly⟩], ?_,
    ⟨memoryDir, memoryContainerPath, .readWrite⟩, List.mem_cons_of_mem _ List.mem_cons_self, rfl⟩
  simp only [buildVolumes, bind, Except.bind, hsafe, hsafe', hsessions, hmemory, hipc, hgroup,
    hskills]
  rfl

/-! ## Folders and user ids that lead apart -/

theorem names_userMemoryPath (service : MemoryService) (userId : String) :
    (service.userMemoryPath userId).names =
      place (service.memoryRoot.enter "user-global".toList) userId ++ ["AGENTS.md".toList] := by
  have hname : "AGENTS.md".toList ≠ parentName := by decide
  rw [← resolve_names, ← names_enter hname]
  exact congrArg Directory.names (Directory.walk_append _ _ _)

/-- The directory of the group has to do with the memory file of the user just where they are not
clear. -/
theorem apart_iff_clear (hvalid : Registry.validateWorkspaceFolder folder = .ok ()) :
    Apart (service.memoryRoot.names ++ [folder.toList]) (service.userMemoryPath userId).names ↔
      Clear service folder userId := by
  have hfile : folder.toList ≠ "AGENTS.md".toList := by
    obtain ⟨ch, rest, hcons, hch, -⟩ := isSlug_iff.mp (isSlug_of_validateWorkspaceFolder hvalid)
    have hagents : "AGENTS.md".toList = 'A' :: "GENTS.md".toList := by decide
    rw [hcons, hagents]
    intro heq
    obtain ⟨rfl, -⟩ := List.cons.inj heq
    exact absurd hch (by decide)
  have hglobal : "user-global".toList ≠ parentName := by decide
  rw [names_userMemoryPath]
  unfold Apart Clear
  split
  · -- The file lies in `user-global`, and no deeper than the directory of a group.
    rename_i hbelow
    have hplace : place (service.memoryRoot.enter "user-global".toList) userId =
        service.memoryRoot.names ++ "user-global".toList ::
          (survivors (PurePath.parse userId).names).2 := by
      rw [place, hbelow.1, hbelow.2, names_enter hglobal]
      simp only [Bool.false_eq_true, if_false, Nat.sub_zero, List.take_length, List.append_assoc,
        List.singleton_append]
    rw [hplace, List.append_assoc, List.prefix_append_right_inj, List.prefix_append_right_inj,
      List.cons_append, List.cons_prefix_cons, List.cons_prefix_cons]
    constructor
    · rintro ⟨hne, -⟩ rfl
      exact hne ⟨rfl, List.nil_prefix⟩
    · intro hne
      exact ⟨fun h => hne (String.toList_inj.mp h.1), fun h => hne (String.toList_inj.mp h.1.symm)⟩
  · rw [List.prefix_concat_iff, List.prefix_concat_iff]
    have hlast : ∀ names names' : List Name,
        names ++ [folder.toList] ≠ names' ++ ["AGENTS.md".toList] := fun names names' heq =>
      hfile (List.cons.inj (List.append_inj' heq rfl).2).1
    constructor
    · rintro ⟨hgroup, huser⟩
      exact ⟨fun h => hgroup (.inr h), fun h => huser (.inr h)⟩
    · rintro ⟨hgroup, huser⟩
      refine ⟨?_, ?_⟩
      · rintro (h | h)
        · exact hlast _ _ h
        · exact hgroup h
      · rintro (h | h)
        · exact hlast _ _ h.symm
        · exact huser h

/-- **The folders and user ids that are kept apart.** -/
theorem memoryDisjoint_iff (hvalid : Registry.validateWorkspaceFolder folder = .ok ()) :
    MemoryDisjoint service folder userId ↔ Clear service folder userId := by
  rw [← apart_iff_clear hvalid]
  have hplain := plain_of_validateWorkspaceFolder hvalid
  constructor
  · rintro ⟨-, hmounted⟩
    obtain ⟨volumes, hbuild, volume, hvolume, hbind⟩ := exists_volumes hvalid service.dataDir
    have hapart := hmounted _ _ _ _ hbuild volume hvolume hbind
    rwa [hostPath_of_memory hplain hbuild hvolume hbind] at hapart
  · rintro ⟨hgroup, huser⟩
    refine ⟨fun disk call names hnames => ?_, fun fs mountUserId readonlyMounts volumes hbuild
      volume hvolume hbind => ?_⟩
    · have hbelow := prefix_of_mem_reached hvalid hnames
      refine ⟨fun hle => hgroup (hbelow.trans hle), fun hle => ?_⟩
      rcases List.prefix_or_prefix_of_prefix hbelow hle with h | h
      · exact hgroup h
      · exact huser h
    · rw [hostPath_of_memory hplain hbuild hvolume hbind]
      exact ⟨hgroup, huser⟩

/-- A user id that is one name does not leave `user-global`. -/
theorem staysBelow_of_plain (h : Plain userId) : StaysBelow userId := by
  have hparent : userId.toList ≠ parentName := fun heq => h.ne_parent (String.toList_inj.mp heq)
  unfold StaysBelow
  rw [PurePath.parse_of_notMem h.noSlash h.ne_empty h.ne_dot]
  exact ⟨rfl, congrArg Prod.fst (survivors_singleton hparent)⟩

/-! ## What the calls for a group leave alone -/

theorem read?_write {disk : Disk} {names names' : List Name} (h : names ≠ names')
    (content : String) : (disk.write names' content).read? names = disk.read? names := by
  have hbeq : (names == names') = false := beq_false_of_ne h
  show List.lookup names ((names', content) :: _) = List.lookup names disk.files
  rw [List.lookup_cons, hbeq]
  simp only
  induction disk.files with
  | nil => rfl
  | cons file files ih =>
    rw [List.filter_cons]
    split
    · rw [List.lookup_cons, List.lookup_cons, ih]
    · rename_i heq
      have hfile : file.1 = names' := by simpa using heq
      rw [List.lookup_cons, hfile, hbeq, ih]

theorem read?_mkdir {disk disk' : Disk} {names : List Name} (h : disk.mkdir names = .ok disk')
    (names' : List Name) : disk'.read? names' = disk.read? names' := by
  unfold Disk.mkdir at h
  split at h
  · rw [← Except.ok.inj h]
    rfl
  · cases h

/-- A call changes the files that it reaches, and no others. -/
theorem read?_after {disk : Disk} {call : GroupCall} {names : List Name}
    (h : names ∉ service.reached disk folder call) :
    (service.after folder disk call).read? names = disk.read? names := by
  cases call with
  | list | search query | get relativePath => rfl
  | update relativePath content =>
    simp only [after]
    split
    · rename_i result disk' hupdate
      simp only [updateGroupMemoryFile, bind, Except.bind] at hupdate
      split at hupdate
      · cases hupdate
      · rename_i resolved hresolved
        split at hupdate
        · cases hupdate
        · split at hupdate
          · cases hupdate
          · split at hupdate
            · cases hupdate
            · rename_i disk'' hmkdir
              obtain ⟨-, rfl⟩ := Prod.mk.inj (Except.ok.inj hupdate)
              have hne : names ≠ resolved.1.names := by
                simpa [reached, hresolved] using h
              rw [read?_write hne, read?_mkdir hmkdir]
    · rfl
  | append content =>
    simp only [after]
    split
    · rename_i disk' happend
      simp only [appendDailyMemory, bind, Except.bind] at happend
      split at happend
      · cases happend
      · rename_i path hpath
        split at happend
        · cases happend
        · rename_i disk'' hmkdir
          rw [← Except.ok.inj happend]
          have hne : names ≠ path.names := by
            simpa [reached, hpath] using h
          unfold Disk.append
          rw [read?_write hne, read?_mkdir hmkdir]
    · rfl

/-- **Calls for a group leave the memory of a user as it is**, where the two are kept apart. -/
theorem read?_run (hvalid : Registry.validateWorkspaceFolder folder = .ok ())
    (hclear : Clear service folder userId) (calls : List GroupCall) (disk : Disk) :
    (calls.foldl (service.after folder) disk).read? (service.userMemoryPath userId).names =
      disk.read? (service.userMemoryPath userId).names := by
  induction calls generalizing disk with
  | nil => rfl
  | cons call calls ih =>
    rw [List.foldl_cons, ih]
    refine read?_after fun hmem => ?_
    obtain ⟨hgroup, -⟩ := (apart_iff_clear hvalid).mpr hclear
    exact hgroup (prefix_of_mem_reached hvalid hmem)

/-- The group `team` and the user `user-1` are kept apart, so no calls for the group change what
the memory of the user holds. -/
theorem memoryDisjoint_team :
    let service : MemoryService :=
      { dataDir := ⟨["data".toList], by decide⟩, today := ⟨2026, 1, 31⟩ }
    MemoryDisjoint service "team" "user-1" ∧
      ∀ (calls : List GroupCall) (disk : Disk),
        (calls.foldl (service.after "team") disk).read? (service.userMemoryPath "user-1").names =
          disk.read? (service.userMemoryPath "user-1").names := by
  intro service
  have hvalid : Registry.validateWorkspaceFolder "team" = .ok () := by decide
  have hclear : Clear service "team" "user-1" := by
    rw [Clear, if_pos (by decide)]
    decide
  exact ⟨(memoryDisjoint_iff hvalid).mpr hclear, read?_run hvalid hclear⟩

/-! ## The folder of the users -/

/-- The folder `user-global` can be created, and the memory of a user is a file of that group. -/
theorem exists_shared_memory :
    ∃ (service : MemoryService) (disk : Disk),
      (({} : Registry).createWorkspace "user-global" "Users" "admin").1.isOk = true ∧
      disk.read? (service.userMemoryPath "user-1").names = some "secret" ∧
      service.getGroupMemoryFile disk "user-global" "user-1/AGENTS.md" =
        .ok { path := "user-1/AGENTS.md", content := "secret", size := 6 } ∧
      ¬ MemoryDisjoint service "user-global" "user-1" := by
  let service : MemoryService :=
    { dataDir := ⟨["data".toList], by decide⟩, today := ⟨2026, 1, 31⟩ }
  let disk : Disk :=
    { makesDirectory := fun _ => true
      files := [(["data".toList, "memory".toList, "user-global".toList, "user-1".toList,
        "AGENTS.md".toList], "secret")] }
  refine ⟨service, disk, ?_, ?_, ?_, ?_⟩
  · decide +kernel
  · decide +kernel
  · decide +kernel
  · intro h
    have hreached : (service.userMemoryPath "user-1").names ∈
        service.reached disk "user-global" (.get "user-1/AGENTS.md") := by decide +kernel
    exact (h.1 disk _ _ hreached).1 (List.prefix_refl _)

end MemoryService

end Portex
