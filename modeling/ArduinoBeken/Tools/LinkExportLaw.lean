import ArduinoBeken.Tools.LinkPlan

/-!
# The Exported Link Line

What the export promises for every link line and every layout. The tokens are
the link line in its order, with every archive and script named by the path of
its copy. Two files share one path only on one shelf and with one name. Where
the export writes beside what it reads, a path that only one file is copied to
holds that file.

A shelf keeps the names of the files and not their directories, but for the
shelf of the SDK: two libraries of one name from two directories come to one
path, and the later of them lies there.

## Main definitions

* `Placement.standIns`: The files of which one is copied.
* `Apart`: The export writes beside what it reads.
* `Exports`: What the export promises.

## Theorems

* `placeAll_changes`: What the copies do to the disk.
* `placeAll_contents`: What an exported path holds.
-/

namespace ArduinoBeken

namespace Tools

open FileTree

variable {κ γ : Type} [DecidableEq κ]

namespace Placement

/-- The files of which one is copied: for an archive of the SoC's vendor
libraries what the build or a patch has in its place, else the file itself. -/
def standIns (layout : Layout κ) : Placement → List Path
  | .script file => [file]
  | .archive file =>
    match file.relativeTo layout.bkLibsSoc with
    | none => [file]
    | some rel =>
      [layout.builtLib file, layout.patchRoot / rel, layout.patchRoot.childOf file, file]

omit [DecidableEq κ] in
/-- The file that is copied is one of them. -/
theorem standIn_mem (layout : Layout κ) (disk : Tree κ γ) (p : Placement) :
    p.standIn layout disk ∈ p.standIns layout := by
  cases p with
  | script file => exact List.mem_singleton_self _
  | archive file =>
      -- whichever stands in for the archive is one of the places looked at
      rw [standIn, standIns, resolveBkLibExportSource]
      rcases file.relativeTo layout.bkLibsSoc with _ | rel
      · exact List.mem_singleton_self _
      simp only
      split
      next => exact List.mem_cons_self
      split
      next => simp only [List.mem_cons, true_or, or_true]
      split
      next => simp only [List.mem_cons, true_or, or_true]
      split <;> simp only [List.mem_cons, true_or, or_true]

omit [DecidableEq κ] in
/-- Which of them it is depends on them and on the directory of the patches. -/
theorem standIn_congr (layout : Layout κ) {disk disk' : Tree κ γ} (p : Placement)
    (hfiles : ∀ c ∈ p.standIns layout,
      contents disk' (layout.locate c) = contents disk (layout.locate c))
    (hdir : isDir disk' (layout.locate layout.patchRoot) =
      isDir disk (layout.locate layout.patchRoot)) :
    p.standIn layout disk' = p.standIn layout disk := by
  cases p with
  | script file => rfl
  | archive file =>
      rw [standIn, standIn, resolveBkLibExportSource, resolveBkLibExportSource]
      rw [standIns] at hfiles
      -- an archive outside the SDK stands for itself
      rcases hrel : file.relativeTo layout.bkLibsSoc with _ | rel
      · rfl
      · simp only [hrel, List.mem_cons, List.not_mem_nil, or_false, forall_eq_or_imp,
          forall_eq] at hfiles
        obtain ⟨hbuilt, hmirrored, hflat, -⟩ := hfiles
        simp only [Layout.isFile, hbuilt, hmirrored, hflat, hdir]
        rfl

end Placement

/-- The export writes beside what it reads: no path that it copies to is one of
the files it looks for, a directory, or above another, and it does not make the
directory of the patches. The tool empties the directory of the export first. -/
structure Apart (layout : Layout κ) (disk : Tree κ γ) (ps : List Placement) : Prop where
  reads : ∀ p ∈ ps, ∀ q ∈ ps, ∀ c ∈ p.standIns layout,
    layout.locate c ≠ layout.locate (q.dst layout)
  noDir : ∀ q ∈ ps, isDir disk (layout.locate (q.dst layout)) = false
  noParent : ∀ p ∈ ps, ∀ q ∈ ps,
    layout.locate (q.dst layout) ∉ (p.dst layout).parents.map layout.locate
  patches : isDir disk (layout.locate layout.patchRoot) = true ∨
    ∀ p ∈ ps, layout.locate layout.patchRoot ∉ (p.dst layout).parents.map layout.locate

/-! ### The copies on the disk -/

/-- What making one copy changes. -/
def copyChanges (layout : Layout κ) (src dst : Path) : List (Change κ) :=
  (dst.parents.map fun p => Change.mkdir (layout.locate p)) ++
    [.copy (layout.locate src) (layout.locate dst)]

/-- What making the copies changes, with the files chosen on the disk. -/
def changesOf (layout : Layout κ) (disk : Tree κ γ) (ps : List Placement) : List (Change κ) :=
  ps.flatMap fun p => copyChanges layout (p.standIn layout disk) (p.dst layout)

omit [DecidableEq κ] in
theorem mem_changesOf_copy (layout : Layout κ) (disk : Tree κ γ) (ps : List Placement) (s k : κ) :
    Change.copy s k ∈ changesOf layout disk ps ↔
      ∃ p ∈ ps, s = layout.locate (p.standIn layout disk) ∧ k = layout.locate (p.dst layout) := by
  simp only [changesOf, copyChanges, List.mem_flatMap, List.mem_append, List.mem_map, reduceCtorEq,
    and_false, exists_false, false_or, List.mem_singleton, Change.copy.injEq]

omit [DecidableEq κ] in
theorem mem_changesOf_mkdir (layout : Layout κ) (disk : Tree κ γ) (ps : List Placement) (k : κ) :
    Change.mkdir k ∈ changesOf layout disk ps ↔
      ∃ p ∈ ps, k ∈ (p.dst layout).parents.map layout.locate := by
  simp only [changesOf, copyChanges, List.mem_flatMap, List.mem_append, List.mem_map,
    Change.mkdir.injEq, List.mem_singleton, reduceCtorEq, or_false]

/-- A copy onto a path that is no directory changes that path, and the
directories above it. -/
theorem copyFile_changes {layout : Layout κ} {disk disk' : Tree κ γ} {src dst : Path}
    (h : copyFile layout disk src dst = .ok disk')
    (hdir : isDir disk (layout.locate dst) = false)
    (hparent : layout.locate dst ∉ dst.parents.map layout.locate) :
    changeAll? disk (copyChanges layout src dst) = some disk' := by
  simp only [copyFile] at h
  split at h
  next d hcopied =>
    obtain ⟨made, hmade, hcopy⟩ := Option.bind_eq_some_iff.1 hcopied
    -- the directories that are made are the parents of the copy alone
    have hnot : isDir made (layout.locate dst) = false := by
      rw [← Bool.not_eq_true, changeAll?_isDir_iff hmade, hdir, List.mem_map]
      rintro (hfalse | ⟨p, hp, heq⟩)
      · exact absurd hfalse Bool.false_ne_true
      · rw [Change.mkdir.injEq] at heq
        exact hparent (heq ▸ List.mem_map_of_mem hp)
    rw [hnot] at hcopy
    simp only [Bool.false_eq_true, if_false] at hcopy
    rw [copyChanges, changeAll?_append, hmade, Option.bind_some, changeAll?, hcopy,
      Option.bind_some, changeAll?, Except.ok.inj h]
  next => exact absurd h (by simp only [reduceCtorEq, not_false_eq_true])

/-- Behind some of the copies the same files are chosen as before them. -/
theorem standIn_behind {layout : Layout κ} {disk t : Tree κ γ} {ps done : List Placement}
    (hapart : Apart layout disk ps) (hsub : ∀ q ∈ done, q ∈ ps)
    (hdone : changeAll? disk (changesOf layout disk done) = some t) {p : Placement} (hp : p ∈ ps) :
    p.standIn layout t = p.standIn layout disk := by
  refine Placement.standIn_congr layout p (fun c hc => ?_) ?_
  · refine changeAll?_contents_of_not_copied hdone fun src hmem => ?_
    obtain ⟨q, hq, -, heq⟩ := (mem_changesOf_copy _ _ _ _ _).1 hmem
    exact hapart.reads p hp q (hsub q hq) c hc heq
  · rw [Bool.eq_iff_iff, changeAll?_isDir_iff hdone, mem_changesOf_mkdir, or_iff_left_iff_imp]
    rintro ⟨q, hq, hmem⟩
    exact hapart.patches.resolve_right fun hnot => hnot q (hsub q hq) hmem

/-- The copies do to the disk what they do with the files chosen before all of
them. The induction goes over the copies to come, behind those that are done. -/
theorem placeAll_changes {layout : Layout κ} {disk t t' : Tree κ γ} {done ps : List Placement}
    {placed : List (Placement × Path)} (hapart : Apart layout disk (done ++ ps))
    (hdone : changeAll? disk (changesOf layout disk done) = some t)
    (h : placeAll layout t ps = .ok (t', placed)) :
    changeAll? disk (changesOf layout disk (done ++ ps)) = some t' ∧
      placed = ps.map fun p => (p, p.standIn layout disk) := by
  induction ps generalizing done t placed with
  | nil =>
      rw [placeAll, Except.ok.injEq, Prod.mk.injEq] at h
      rw [List.append_nil, hdone, h.1, ← h.2]
      exact ⟨rfl, rfl⟩
  | cons p ps ih =>
      obtain ⟨mid, rest, hcopy, hrest, rfl⟩ := (placeAll_cons_eq_ok _ _ _ _ _ _).1 h
      have hp : p ∈ done ++ p :: ps := List.mem_append_right _ List.mem_cons_self
      have hsub : ∀ q ∈ done, q ∈ done ++ p :: ps := fun q hq => List.mem_append_left _ hq
      have hsrc := standIn_behind hapart hsub hdone hp
      rw [hsrc] at hcopy ⊢
      -- No directory has come to be where the copy lands.
      have hdir : isDir t (layout.locate (p.dst layout)) = false := by
        rw [← Bool.not_eq_true, changeAll?_isDir_iff hdone, hapart.noDir p hp, mem_changesOf_mkdir]
        rintro (hfalse | ⟨q, hq, hmem⟩)
        · exact absurd hfalse Bool.false_ne_true
        · exact hapart.noParent q (hsub q hq) p hp hmem
      have hchange := copyFile_changes hcopy hdir (hapart.noParent p hp p hp)
      have hmid : changeAll? disk (changesOf layout disk (done ++ [p])) = some mid := by
        rw [changesOf, List.flatMap_append, changeAll?_append, ← changesOf, hdone, Option.bind_some,
          List.flatMap_singleton, hchange]
      have happ : done ++ p :: ps = (done ++ [p]) ++ ps := by
        rw [List.append_assoc, List.singleton_append]
      obtain ⟨hall, hplaced⟩ := ih (happ ▸ hapart) hmid hrest
      exact ⟨happ ▸ hall, by rw [hplaced, List.map_cons]⟩

/-- A path that one file alone is copied to holds that file. -/
theorem placeAll_contents {layout : Layout κ} {disk t' : Tree κ γ} {ps : List Placement}
    {placed : List (Placement × Path)} (hapart : Apart layout disk ps)
    (h : placeAll layout disk ps = .ok (t', placed)) {p : Placement} (hp : p ∈ ps)
    (halone : ∀ q ∈ ps, layout.locate (q.dst layout) = layout.locate (p.dst layout) →
      layout.locate (q.standIn layout disk) = layout.locate (p.standIn layout disk)) :
    (contents disk (layout.locate (p.standIn layout disk))).isSome = true ∧
      contents t' (layout.locate (p.dst layout)) =
        contents disk (layout.locate (p.standIn layout disk)) := by
  obtain ⟨hall, -⟩ := placeAll_changes (show Apart layout disk ([] ++ ps) from hapart) rfl h
  rw [List.nil_append] at hall
  have hmem : Change.copy (layout.locate (p.standIn layout disk)) (layout.locate (p.dst layout)) ∈
      changesOf layout disk ps :=
    (mem_changesOf_copy _ _ _ _ _).2 ⟨p, hp, rfl, rfl⟩
  -- nothing is copied over a file that is still to be read
  have hsrc : ∀ s, Change.copy s (layout.locate (p.standIn layout disk)) ∉
      changesOf layout disk ps := by
    intro s hs
    obtain ⟨q, hq, -, heq⟩ := (mem_changesOf_copy _ _ _ _ _).1 hs
    exact hapart.reads p hp q hq _ (p.standIn_mem layout disk) heq
  refine ⟨changeAll?_src hall hmem hsrc, changeAll?_contents_of_copied hall hmem ?_ hsrc⟩
  intro s hs
  obtain ⟨q, hq, rfl, heq⟩ := (mem_changesOf_copy _ _ _ _ _).1 hs
  exact halone q hq heq.symm

/-! ### The export -/

/-- What the link line and the build line have the export do. -/
def linkPlan (layout : Layout κ) (linkTokens buildTokens : List (List Char)) :
    List (LinkItem × Option Placement) :=
  plan layout (scriptLookup layout buildTokens) none
    (readItems (withBuildArchives linkTokens buildTokens))

omit [DecidableEq κ] in
theorem plan_items (layout : Layout κ) (lookup : List (List Char × Path)) (dir : Option Path)
    (items : List LinkItem) : (plan layout lookup dir items).map Prod.fst = items := by
  induction items generalizing dir with
  | nil => rfl
  | cons item items ih => rw [plan, List.map_cons, ih]

omit [DecidableEq κ] in
/-- The plan is for the link line in its order, with the archives that only the
build line has. -/
theorem linkPlan_tokens (layout : Layout κ) (linkTokens buildTokens : List (List Char)) :
    (linkPlan layout linkTokens buildTokens).flatMap (fun x => x.1.tokens) =
      withBuildArchives linkTokens buildTokens := by
  have hmap : (linkPlan layout linkTokens buildTokens).flatMap (fun x => x.1.tokens) =
      ((linkPlan layout linkTokens buildTokens).map Prod.fst).flatMap LinkItem.tokens := by
    rw [List.flatMap_map]
  rw [hmap, linkPlan, plan_items, readItems_tokens]

/-- The archives of the build line come in front of the first `-T`. -/
theorem withBuildArchives_eq (linkTokens buildTokens : List (List Char)) :
    ∃ front back, linkTokens = front ++ back ∧ "-T".toList ∉ front ∧
      (∀ token, back.head? = some token → token = "-T".toList) ∧
      withBuildArchives linkTokens buildTokens =
        front ++ (buildTokens.filter fun token =>
          endsWith token ".a".toList && token ∉ linkTokens) ++ back := by
  refine ⟨_, _, (List.take_append_drop (linkTokens.idxOf "-T".toList) linkTokens).symm, ?_, ?_, rfl⟩
  · intro hmem
    exact lt_irrefl _ ((List.mem_take_iff_idxOf_lt (List.mem_of_mem_take hmem)).1 hmem)
  · intro token htoken
    rw [List.head?_drop, List.getElem?_eq_some_iff] at htoken
    obtain ⟨hlt, htoken⟩ := htoken
    rw [← htoken, List.getElem_idxOf]

/-- What the export promises, for the tokens of both lines. -/
structure Exports (layout : Layout κ) (linkTokens buildTokens : List (List Char))
    (disk : Tree κ γ) (out : Exported κ γ) : Prop where
  /-- The items are the link line in its order, with the archives that only the
  build line has in front of the first `-T`, or at the end. -/
  order : ∃ front back, linkTokens = front ++ back ∧ "-T".toList ∉ front ∧
    (∀ token, back.head? = some token → token = "-T".toList) ∧
    (linkPlan layout linkTokens buildTokens).flatMap (fun x => x.1.tokens) =
      front ++ (buildTokens.filter fun token =>
        endsWith token ".a".toList && token ∉ linkTokens) ++ back
  /-- Each is exported as what it stands for. -/
  tokens : out.ldLibs =
    (linkPlan layout linkTokens buildTokens).flatMap (exportedTokens layout)
  /-- Files share a path on one shelf only, and with one name only. -/
  shared : ∀ p q : Placement, p.dst layout = q.dst layout ↔
    p.shelf layout = q.shelf layout ∧
      if p.shelf layout = .sdk then p.file = q.file else p.file.name = q.file.name
  /-- A path that one file alone is copied to holds that file. -/
  contents : Apart layout disk (placements (linkPlan layout linkTokens buildTokens)) →
    ∀ p ∈ placements (linkPlan layout linkTokens buildTokens),
      (∀ q ∈ placements (linkPlan layout linkTokens buildTokens),
        layout.locate (q.dst layout) = layout.locate (p.dst layout) →
          layout.locate (q.standIn layout disk) = layout.locate (p.standIn layout disk)) →
      (contents disk (layout.locate (p.standIn layout disk))).isSome = true ∧
        contents out.disk (layout.locate (p.dst layout)) =
          contents disk (layout.locate (p.standIn layout disk))
  /-- The manifest lists the copies, each with the file that was copied. -/
  manifest : Apart layout disk (placements (linkPlan layout linkTokens buildTokens)) →
    out.exportedLibs = ((placements (linkPlan layout linkTokens buildTokens)).map
      fun p => (p, p.standIn layout disk)).filterMap (libAsset layout) ∧
    out.exportedLd = ((placements (linkPlan layout linkTokens buildTokens)).map
      fun p => (p, p.standIn layout disk)).filterMap (ldAsset layout)

/-- Whatever the link line and the layout, what is exported is as promised. -/
theorem exportLinkAssets_exports (layout : Layout κ)
    (buildLine flagsLine linkLibsLine : List Char) (disk : Tree κ γ)
    (linkTokens buildTokens ldFlags : List (List Char)) (out : Exported κ γ)
    (hlink : shlexTokens linkLibsLine = .ok linkTokens)
    (hbuild : shlexTokens buildLine = .ok buildTokens)
    (h : exportLinkAssets layout buildLine flagsLine linkLibsLine disk = .ok (ldFlags, out)) :
    Exports layout linkTokens buildTokens disk out := by
  rw [exportLinkAssets] at h
  -- The three lines are split, and the loop goes over the tokens.
  obtain ⟨flags, -, h⟩ := (Stages.bind_eq_ok _ _ _).1 h
  obtain ⟨link, hlink', h⟩ := (Stages.bind_eq_ok _ _ _).1 h
  obtain ⟨build, hbuild', h⟩ := (Stages.bind_eq_ok _ _ _).1 h
  obtain ⟨out', hloop, h⟩ := (Stages.bind_eq_ok _ _ _).1 h
  rw [hlink, Except.ok.injEq] at hlink'
  rw [hbuild, Except.ok.injEq] at hbuild'
  rw [Except.ok.injEq, Prod.mk.injEq] at h
  rw [← hlink', ← hbuild', h.2] at hloop
  obtain ⟨placed, hplaced, htokens, hlibs, hld⟩ := exportFrom_spec hloop
  refine ⟨?_, htokens, Placement.dst_eq_iff layout, fun hapart p hp halone =>
    placeAll_contents hapart hplaced hp halone, fun hapart => ?_⟩
  · obtain ⟨front, back, hline, hfront, hback, heq⟩ := withBuildArchives_eq linkTokens buildTokens
    exact ⟨front, back, hline, hfront, hback, (linkPlan_tokens _ _ _).trans heq⟩
  · obtain ⟨-, hlist⟩ := placeAll_changes (show Apart layout disk ([] ++ _) from hapart) rfl hplaced
    rw [hlibs, hld, hlist, List.nil_append, List.nil_append]
    exact ⟨rfl, rfl⟩

/-! ### A layout -/

/-- A layout without links, with all its paths written out. -/
def demoLayout : Layout Path where
  cmakeBuildDir := Path.ofText "/b/soc".toList
  sdkDir := Path.ofText "/sdk".toList
  projectRoot := Path.ofText "/p".toList
  soc := "soc".toList
  outputRoot := Path.ofText "/out".toList
  resolve := id
  locate := id

/-- A disk with some files, and with directories where there are no contents. -/
def demoDisk (files : List (String × Option Nat)) : Tree Path Nat := fun p =>
  (files.find? fun f => Path.ofText f.1.toList = p).map fun f => f.2.elim .dir .file

theorem exists_of_toOption_map {ε α β : Type} {x : Except ε α} {f : α → β} {b : β}
    (h : x.toOption.map f = some b) : ∃ a, x = .ok a ∧ f a = b := by
  cases x with
  | error e => exact absurd h (by simp only [Except.toOption, Option.map_none, reduceCtorEq,
      not_false_eq_true])
  | ok a => exact ⟨a, rfl, Option.some.inj h⟩

/-- An archive of the SoC, which the build has an own output for, and a script
that is looked for in the directory of the build. -/
def demoLinkLine : List Char :=
  "-lm /sdk/components/bk_libs/soc/libv.a -L /b/soc -T s.ld".toList

/-- The build line names one more archive. -/
def demoBuildLine : List Char :=
  "build app.elf: armino/libq.a".toList

/-- A build with an archive of its own, a script, and a vendor's library with a newer one in its
place. -/
def demoFiles : Tree Path Nat :=
  demoDisk [("/b/soc/armino/libq.a", some 1), ("/b/soc/s.ld", some 2),
    ("/sdk/components/bk_libs/soc/libv.a", some 3),
    ("/b/soc/armino_as_lib/soc/libs/libv.a", some 4)]

/-- A link line with each kind of token. -/
def demoLinkTokens : List (List Char) :=
  ["-lm".toList, "/sdk/components/bk_libs/soc/libv.a".toList, "-L".toList, "/b/soc".toList,
    "-T".toList, "s.ld".toList]

/-- A build line with an archive that the link line does not name. -/
def demoBuildTokens : List (List Char) :=
  ["build".toList, "app.elf:".toList, "armino/libq.a".toList]

theorem demo_apart :
    Apart demoLayout demoFiles
      (placements (linkPlan demoLayout demoLinkTokens demoBuildTokens)) where
  reads := by decide +kernel
  noDir := by decide +kernel
  noParent := by decide +kernel
  patches := by decide +kernel

/-- The archive of the SoC comes to the path on its shelf, with the output of the
build in it. -/
theorem exportLinkAssets_exports_demo :
    ∃ out, exportLinkAssets demoLayout demoBuildLine "-Os".toList demoLinkLine demoFiles =
        .ok (["-Os".toList], out) ∧
      out.ldLibs = ["-lm".toList, sdkToken "bk_libs/libv.a".toList,
        sdkToken "armino_as_lib/soc/libs/libq.a".toList, "-T".toList,
        sdkToken "ld/s.ld".toList] ∧
      contents out.disk (Path.ofText "/out/bk_libs/libv.a".toList) = some 4 := by
  have hsome : (exportLinkAssets demoLayout demoBuildLine "-Os".toList demoLinkLine
      demoFiles).toOption.map Prod.fst = some ["-Os".toList] := by decide +kernel
  obtain ⟨⟨flags, out⟩, hout, hflags⟩ := exists_of_toOption_map hsome
  have hexports := exportLinkAssets_exports demoLayout demoBuildLine "-Os".toList demoLinkLine
    demoFiles demoLinkTokens demoBuildTokens flags out (by decide +kernel) (by decide +kernel) hout
  have hcontents := (hexports.contents demo_apart
    (.archive (Path.ofText "/sdk/components/bk_libs/soc/libv.a".toList)) (by decide +kernel)
    (by decide +kernel)).2
  refine ⟨out, hflags ▸ hout, ?_, hcontents.trans (by decide +kernel)⟩
  rw [hexports.tokens]
  decide +kernel

/-! ### The line as it was -/

/-- The tokens of an item with nothing but its path replaced. -/
def replacedTokens (layout : Layout κ) : LinkItem × Option Placement → List (List Char)
  | (.searchDir dir, _) => (LinkItem.searchDir dir).tokens
  | (.mapFile token, _) => (LinkItem.mapFile token).tokens
  | x => exportedTokens layout x

/-- The link line is exported as it was, with nothing but paths replaced, and
every exported path belongs to one file and holds it. -/
def Literal (layout : Layout κ) (linkTokens buildTokens : List (List Char)) (disk : Tree κ γ)
    (out : Exported κ γ) : Prop :=
  let line := plan layout (scriptLookup layout buildTokens) none (readItems linkTokens)
  out.ldLibs = line.flatMap (replacedTokens layout) ∧
    (∀ p ∈ placements line, contents out.disk (layout.locate (p.dst layout)) =
      contents disk (layout.locate p.file)) ∧
    ∀ p ∈ placements line, ∀ q ∈ placements line, p.dst layout = q.dst layout → p.file = q.file

instance [DecidableEq γ] (layout : Layout κ) (linkTokens buildTokens : List (List Char))
    (disk : Tree κ γ) (out : Exported κ γ) :
    Decidable (Literal layout linkTokens buildTokens disk out) :=
  inferInstanceAs (Decidable (_ ∧ _ ∧ _))

/-- A link line, a build line and a disk. -/
structure DemoRun where
  link : String
  build : String
  files : List (String × Option Nat)

/-- The run exports something else than the line as it was. -/
def DemoRun.Fails (r : DemoRun) : Prop :=
  ∃ linkTokens buildTokens ldFlags out,
    shlexTokens r.link.toList = .ok linkTokens ∧ shlexTokens r.build.toList = .ok buildTokens ∧
      exportLinkAssets demoLayout r.build.toList [] r.link.toList (demoDisk r.files) =
        .ok (ldFlags, out) ∧
      ¬Literal demoLayout linkTokens buildTokens (demoDisk r.files) out

/-- The same, run. -/
def DemoRun.fails (r : DemoRun) : Bool :=
  match shlexTokens r.link.toList, shlexTokens r.build.toList,
    exportLinkAssets demoLayout r.build.toList [] r.link.toList (demoDisk r.files) with
  | .ok linkTokens, .ok buildTokens, .ok (_, out) =>
    !decide (Literal demoLayout linkTokens buildTokens (demoDisk r.files) out)
  | _, _, _ => false

theorem DemoRun.fails_sound (r : DemoRun) (h : r.fails = true) : r.Fails := by
  rw [fails] at h
  split at h
  next linkTokens buildTokens flags out hlink hbuild hrun =>
    rw [Bool.not_eq_true', decide_eq_false_iff_not] at h
    exact ⟨linkTokens, buildTokens, flags, out, hlink, hbuild, hrun, h⟩
  next => exact absurd h Bool.false_ne_true

/-- Two archives of one name share a path, and the later one lies there. -/
theorem shared_name_not_literal :
    DemoRun.Fails ⟨"/a/libx.a /c/libx.a", "build",
      [("/a/libx.a", some 1), ("/c/libx.a", some 2)]⟩ :=
  DemoRun.fails_sound _ (by decide +kernel)

/-- Lines that are not exported as they were. -/
def demoRuns : List DemoRun :=
  -- A search directory is left out.
  [⟨"-L /b/soc -lm", "build", []⟩,
    -- The map is that of the sketch.
    ⟨"-Wl,--print-memory-usage,--Map=app.map", "build", []⟩,
    -- An archive that only the build line has is put in.
    ⟨"-lm", "build app.elf: /a/libx.a", [("/a/libx.a", some 1)]⟩,
    -- The output of the build takes the place of the vendor's library.
    ⟨"/sdk/components/bk_libs/soc/libv.a", "build",
      [("/sdk/components/bk_libs/soc/libv.a", some 1),
        ("/b/soc/armino_as_lib/soc/libs/libv.a", some 2)]⟩,
    -- A script lies where an archive is copied to before.
    ⟨"/a/libx.a -T /out/lib/external/libx.a", "build",
      [("/a/libx.a", some 1), ("/out/lib/external/libx.a", some 2)]⟩,
    -- A directory lies where a script is copied to.
    ⟨"-T /a/s.ld", "build", [("/a/s.ld", some 1), ("/out/ld/s.ld", none)]⟩]

theorem exportLinkAssets_not_literal : demoRuns.Forall DemoRun.Fails := by
  have h : ∀ r ∈ demoRuns, r.fails = true := by decide +kernel
  exact List.forall_iff_forall_mem.2 fun r hr => r.fails_sound (h r hr)

end Tools

end ArduinoBeken
