import ArduinoBeken.Tools.LinkExport
import ArduinoBeken.Library.Stages

/-!
# What the Link Line Asks For

The link line read as items, and what each item has the export do, told apart
from the disk. An archive or a script has one place in the exported SDK, on one
of six shelves, and the place depends on the layout alone. The loop of the
export is then the plan: its tokens are those of the items in their order, and
it copies the placements one after the other.

## Main definitions

* `LinkItem`, `readItems`: The link line as items.
* `plan`, `exportedTokens`, `placeAll`: What the export does, item by item.
* `Follows`: What the loop does from one point to another.

## Theorems

* `readItems_tokens`: The items are the line, in its order.
* `Placement.dst_eq_iff`: Which placements share one path.
* `exportFrom_spec`: The loop does what is planned.
-/

namespace ArduinoBeken

namespace Tools

open FileTree

/-! ### Items -/

/-- One item of the link line. -/
inductive LinkItem where
  | searchDir (dir : List Char)
  | script (name : List Char)
  | archive (token : List Char)
  | mapFile (token : List Char)
  | flag (token : List Char)
deriving DecidableEq

/-- The tokens that an item is written with. -/
def LinkItem.tokens : LinkItem → List (List Char)
  | .searchDir dir => ["-L".toList, dir]
  | .script name => ["-T".toList, name]
  | .archive token | .mapFile token | .flag token => [token]

/-- A token on its own. -/
def readItem (token : List Char) : LinkItem :=
  if endsWith token ".a".toList then .archive token
  else if startsWith token mapStart then .mapFile token
  else .flag token

/-- The tokens, of which two may belong together. -/
def readItems : List (List Char) → List LinkItem
  | [] => []
  | [token] => [readItem token]
  | token :: next :: rest =>
    if token = "-L".toList then .searchDir next :: readItems rest
    else if token = "-T".toList then .script next :: readItems rest
    else readItem token :: readItems (next :: rest)

theorem readItem_tokens (token : List Char) : (readItem token).tokens = [token] := by
  rw [readItem]
  split
  next => rfl
  next => split <;> rfl

/-- The items are the line, in its order. -/
theorem readItems_tokens (line : List (List Char)) :
    (readItems line).flatMap LinkItem.tokens = line := by
  -- `-L` and `-T` take the word behind them, every other word stands alone
  induction line using readItems.induct with
  | case1 => rfl
  | case2 token =>
      rw [readItems, List.flatMap_singleton, readItem_tokens]
  | case3 next rest ih =>
      rw [readItems, if_pos rfl, List.flatMap_cons, ih]
      rfl
  | case4 next rest hne ih =>
      rw [readItems, if_neg hne, if_pos rfl, List.flatMap_cons, ih]
      rfl
  | case5 token next rest hL hT ih =>
      rw [readItems, if_neg hL, if_neg hT, List.flatMap_cons, ih, readItem_tokens]
      rfl

/-! ### Placements -/

variable {κ γ : Type} [DecidableEq κ]

omit [DecidableEq κ] in
/-- A path on a shelf tells which shelf it is. -/
theorem Shelf.ofNames_names (layout : Layout κ) (shelf : Shelf) (names : List Name) :
    ofNames (shelf.names layout ++ names) = some shelf := by
  cases shelf <;> rfl

namespace Placement

/-- The file that the link line names. -/
def file : Placement → Path
  | .archive file | .script file => file

/-- Where it is exported to. -/
def dst (layout : Layout κ) : Placement → Path
  | .archive file => classifyExportPath layout file (classifyProjectLibrary file)
  | .script file => scriptDst layout file

/-- The same, as the token has it. -/
def path (layout : Layout κ) (p : Placement) : List Char :=
  ((p.dst layout).relativeTo layout.outputRoot).elim [] Path.str

/-- The file that is copied. -/
def standIn (layout : Layout κ) (disk : Tree κ γ) : Placement → Path
  | .archive file => resolveBkLibExportSource layout disk file
  | .script file => file

/-- Its names on the shelf: one name, but on the shelf of the SDK, which keeps
the directories. -/
def onShelf (layout : Layout κ) (p : Placement) : List Name :=
  if p.shelf layout = .sdk then p.file.names.drop layout.sdkDir.names.length
  else p.file.name.toList

omit [DecidableEq κ] in
/-- The export path is the shelf with the names on it. -/
theorem dst_eq (layout : Layout κ) (p : Placement) :
    p.dst layout = { layout.outputRoot with names :=
      layout.outputRoot.names ++ ((p.shelf layout).names layout ++ p.onShelf layout) } := by
  rw [onShelf]
  -- one case for each shelf of the export
  cases p with
  | script file =>
      simp only [dst, shelf, scriptDst, Path.childOf, Path.child, Placement.file, Shelf.names,
        reduceCtorEq, if_false, List.append_assoc]
  | archive file =>
      simp only [dst, shelf, classifyExportPath, Placement.file]
      split
      next => simp only [Path.childOf, Path.child, Shelf.names, reduceCtorEq, if_false,
        List.append_assoc]
      split
      next => simp only [Path.childOf, Path.child, Shelf.names, reduceCtorEq, if_false,
        List.append_assoc, List.cons_append, List.nil_append]
      split
      next => simp only [Path.childOf, Path.child, Shelf.names, reduceCtorEq, if_false,
        List.append_assoc]
      rw [isRelativeTo]
      rcases hrel : file.relativeTo layout.sdkDir with _ | rel
      · simp only [Option.isSome_none, Bool.false_eq_true, if_false, reduceCtorEq, Path.childOf,
          Path.child, Shelf.names, List.append_assoc, List.cons_append, List.nil_append]
      · -- On the shelf of the SDK the path below its directory is kept.
        obtain ⟨hroot, hfile⟩ := (Path.relativeTo_eq_some_iff _ _ _).1 hrel
        have hnames : file.names.drop layout.sdkDir.names.length = rel.names := by
          rw [hfile]
          exact List.drop_left
        simp only [Option.isSome_some, if_true, Shelf.names, hnames]
        change Path.div _ _ = _
        rw [Path.div, Path.isAbsolute, hroot]
        simp only [ne_eq, not_true_eq_false, decide_false, Bool.false_eq_true, if_false,
          Path.child, List.append_assoc, List.cons_append, List.nil_append]

omit [DecidableEq κ] in
theorem isRelativeTo_of_shelf (layout : Layout κ) {p : Placement} (h : p.shelf layout = .sdk) :
    ∃ rel, p.file = { layout.sdkDir with names := layout.sdkDir.names ++ rel } := by
  cases p with
  | script file => exact absurd h (by rw [shelf]; simp only [reduceCtorEq, not_false_eq_true])
  | archive file =>
      have hrel : isRelativeTo file layout.sdkDir = true := by
        -- only an archive below the SDK's directory gets onto its shelf
        by_contra hnot
        simp only [shelf, if_neg hnot] at h
        split at h
        next => exact absurd h (by simp only [reduceCtorEq, not_false_eq_true])
        split at h
        next => exact absurd h (by simp only [reduceCtorEq, not_false_eq_true])
        split at h <;> exact absurd h (by simp only [reduceCtorEq, not_false_eq_true])
      obtain ⟨rel, hrel⟩ := Option.isSome_iff_exists.1 hrel
      exact ⟨rel.names, ((Path.relativeTo_eq_some_iff _ _ _).1 hrel).2⟩

omit [DecidableEq κ] in
/-- Two placements share one path exactly where they are on one shelf with one
name, and on the shelf of the SDK only if they are one file. -/
theorem dst_eq_iff (layout : Layout κ) (p q : Placement) :
    p.dst layout = q.dst layout ↔
      p.shelf layout = q.shelf layout ∧
        if p.shelf layout = .sdk then p.file = q.file else p.file.name = q.file.name := by
  constructor
  · intro h
    rw [dst_eq, dst_eq, Path.mk.injEq] at h
    -- The names tell the shelf, and behind it they are those on it.
    have hnames := List.append_cancel_left h.2
    have hshelf : p.shelf layout = q.shelf layout := by
      have hmark := congrArg Shelf.ofNames hnames
      rwa [Shelf.ofNames_names, Shelf.ofNames_names, Option.some.injEq] at hmark
    refine ⟨hshelf, ?_⟩
    rw [hshelf] at hnames ⊢
    have htail := List.append_cancel_left hnames
    rw [onShelf, onShelf, hshelf] at htail
    split
    next hsdk =>
      obtain ⟨rel, hp⟩ := isRelativeTo_of_shelf layout (hshelf.trans hsdk)
      obtain ⟨rel', hq⟩ := isRelativeTo_of_shelf layout hsdk
      rw [if_pos hsdk, if_pos hsdk, hp, hq, List.drop_left, List.drop_left] at htail
      rw [hp, hq, htail]
    next hsdk =>
      rw [if_neg hsdk, if_neg hsdk] at htail
      rw [← Option.head?_toList (o := p.file.name), htail, Option.head?_toList]
  · rintro ⟨hshelf, hname⟩
    rw [dst_eq, dst_eq, onShelf, onShelf, ← hshelf]
    split at hname
    next hsdk => rw [if_pos hsdk, if_pos hsdk, hname]
    next hsdk => rw [if_neg hsdk, if_neg hsdk, hname]

omit [DecidableEq κ] in
/-- A placement lies below the root of the export. -/
theorem dst_relativeTo (layout : Layout κ) (p : Placement) :
    ∃ rel, (p.dst layout).relativeTo layout.outputRoot = some rel :=
  ⟨{ root := [], names := (p.shelf layout).names layout ++ p.onShelf layout },
    (Path.relativeTo_eq_some_iff _ _ _).2 ⟨rfl, dst_eq layout p⟩⟩

omit [DecidableEq κ] in
theorem exportedPath_dst (layout : Layout κ) (p : Placement) :
    exportedPath layout (p.dst layout) = .ok (p.path layout) := by
  obtain ⟨rel, hrel⟩ := dst_relativeTo layout p
  rw [exportedPath, path, hrel]
  rfl

end Placement

/-! ### The plan -/

/-- What an item has copied. The archive of the core is left to the platform. -/
def placementOf (layout : Layout κ) (lookup : List (List Char × Path))
    (lastSearchDir : Option Path) : LinkItem → Option Placement
  | .script name => some (.script (scriptSource layout lookup lastSearchDir name))
  | .archive token =>
    let source := archiveSource layout token
    if classifyProjectLibrary source = some .core then none else some (.archive source)
  | _ => none

/-- The search directory behind an item. -/
def dirBehind (layout : Layout κ) (lastSearchDir : Option Path) : LinkItem → Option Path
  | .searchDir dir => searchDir layout lastSearchDir dir
  | _ => lastSearchDir

/-- The items of a line, each with what it has copied. -/
def plan (layout : Layout κ) (lookup : List (List Char × Path)) :
    Option Path → List LinkItem → List (LinkItem × Option Placement)
  | _, [] => []
  | dir, item :: items =>
    (item, placementOf layout lookup dir item) ::
      plan layout lookup (dirBehind layout dir item) items

/-- The files that a line has copied. -/
def placements (line : List (LinkItem × Option Placement)) : List Placement :=
  line.filterMap Prod.snd

/-- The tokens that an item is exported as: the path of its copy, the
placeholder of the core, the map of the sketch, and nothing for a search
directory. -/
def exportedTokens (layout : Layout κ) : LinkItem × Option Placement → List (List Char)
  | (.searchDir _, _) => []
  | (.script name, placed) =>
    ["-T".toList, placed.elim name fun p => sdkToken (p.path layout)]
  | (.archive _, placed) => [placed.elim coreArchiveToken fun p => sdkToken (p.path layout)]
  | (.mapFile _, _) => [mapToken]
  | (.flag token, _) => [token]

/-- The copies one after the other, with the file that was copied for each. -/
def placeAll (layout : Layout κ) (disk : Tree κ γ) :
    List Placement → Except ExportError (Tree κ γ × List (Placement × Path))
  | [] => .ok (disk, [])
  | p :: ps =>
    let src := p.standIn layout disk
    (copyFile layout disk src (p.dst layout)).bind fun disk' =>
      (placeAll layout disk' ps).map fun (disk'', placed) => (disk'', (p, src) :: placed)

/-- The entry of an archive in the manifest. -/
def libAsset (layout : Layout κ) : Placement × Path → Option Asset
  | (.archive file, src) => some ⟨src.str, (Placement.archive file).path layout⟩
  | (.script _, _) => none

/-- The entry of a script in the manifest. -/
def ldAsset (layout : Layout κ) : Placement × Path → Option Asset
  | (.archive _, _) => none
  | (.script file, src) => some ⟨src.str, (Placement.script file).path layout⟩

/-- What the export does from `out` to `out'`: it emits the tokens of the line,
and copies and lists what the line has copied. -/
def Follows (layout : Layout κ) (line : List (LinkItem × Option Placement))
    (out out' : Exported κ γ) : Prop :=
  ∃ placed, placeAll layout out.disk (placements line) = .ok (out'.disk, placed) ∧
    out'.ldLibs = out.ldLibs ++ line.flatMap (exportedTokens layout) ∧
    out'.exportedLibs = out.exportedLibs ++ placed.filterMap (libAsset layout) ∧
    out'.exportedLd = out.exportedLd ++ placed.filterMap (ldAsset layout)

theorem Follows.nil (layout : Layout κ) (out : Exported κ γ) : Follows layout [] out out :=
  ⟨[], rfl, by simp only [List.flatMap_nil, List.append_nil], by
    simp only [List.filterMap_nil, List.append_nil], by
    simp only [List.filterMap_nil, List.append_nil]⟩

/-- The copies are made when the first is and the others are behind it. -/
theorem placeAll_cons_eq_ok (layout : Layout κ) (disk disk'' : Tree κ γ) (p : Placement)
    (ps : List Placement) (placed : List (Placement × Path)) :
    placeAll layout disk (p :: ps) = .ok (disk'', placed) ↔
      ∃ disk' placed', copyFile layout disk (p.standIn layout disk) (p.dst layout) = .ok disk' ∧
        placeAll layout disk' ps = .ok (disk'', placed') ∧
        placed = (p, p.standIn layout disk) :: placed' := by
  rw [placeAll]
  constructor
  -- a copy that fails ends the export
  · intro h
    rcases hcopy : copyFile layout disk (p.standIn layout disk) (p.dst layout) with _ | disk'
    · rw [hcopy] at h
      exact absurd h (by simp only [Except.bind, reduceCtorEq, not_false_eq_true])
    rcases hrest : placeAll layout disk' ps with _ | ⟨_, placed'⟩
    · simp only [hcopy, Except.bind, hrest, Except.map] at h
      exact absurd h (by simp only [reduceCtorEq, not_false_eq_true])
    · simp only [hcopy, Except.bind, hrest, Except.map, Except.ok.injEq, Prod.mk.injEq] at h
      exact ⟨disk', placed', rfl, h.1 ▸ hrest, h.2.symm⟩
  · rintro ⟨disk', placed', hcopy, hrest, rfl⟩
    simp only [hcopy, Except.bind, hrest, Except.map]

theorem placeAll_append {layout : Layout κ} {disk disk' disk'' : Tree κ γ} {ps qs : List Placement}
    {placed placed' : List (Placement × Path)} (h : placeAll layout disk ps = .ok (disk', placed))
    (h' : placeAll layout disk' qs = .ok (disk'', placed')) :
    placeAll layout disk (ps ++ qs) = .ok (disk'', placed ++ placed') := by
  induction ps generalizing disk placed with
  | nil =>
      rw [placeAll, Except.ok.injEq, Prod.mk.injEq] at h
      rw [List.nil_append, h.1, ← h.2, List.nil_append, h']
  | cons p ps ih =>
      obtain ⟨d, rest, hcopy, hrest, rfl⟩ := (placeAll_cons_eq_ok _ _ _ _ _ _).1 h
      exact (placeAll_cons_eq_ok _ _ _ _ _ _).2 ⟨d, rest ++ placed', hcopy, ih hrest, rfl⟩

theorem Follows.append {layout : Layout κ} {front back : List (LinkItem × Option Placement)}
    {out out' out'' : Exported κ γ} (h : Follows layout front out out')
    (h' : Follows layout back out' out'') : Follows layout (front ++ back) out out'' := by
  obtain ⟨placed, hplaced, htokens, hlibs, hld⟩ := h
  obtain ⟨placed', hplaced', htokens', hlibs', hld'⟩ := h'
  refine ⟨placed ++ placed', ?_, ?_, ?_, ?_⟩
  · rw [placements, List.filterMap_append]
    exact placeAll_append hplaced hplaced'
  · rw [htokens', htokens, List.flatMap_append, List.append_assoc]
  · rw [hlibs', hlibs, List.filterMap_append, List.append_assoc]
  · rw [hld', hld, List.filterMap_append, List.append_assoc]

/-- An item that has nothing copied. -/
theorem follows_text (layout : Layout κ) (item : LinkItem) (out : Exported κ γ) :
    Follows layout [(item, none)] out
      { out with ldLibs := out.ldLibs ++ exportedTokens layout (item, none) } :=
  ⟨[], rfl, by simp only [List.flatMap_singleton], by
    simp only [List.filterMap_nil, List.append_nil], by
    simp only [List.filterMap_nil, List.append_nil]⟩

/-- An item that has a file copied. -/
theorem follows_copy {layout : Layout κ} {item : LinkItem} {p : Placement} {out : Exported κ γ}
    {disk : Tree κ γ}
    (h : copyFile layout out.disk (p.standIn layout out.disk) (p.dst layout) = .ok disk) :
    Follows layout [(item, some p)] out
      { disk := disk
        ldLibs := out.ldLibs ++ exportedTokens layout (item, some p)
        exportedLibs := out.exportedLibs ++ (libAsset layout (p, p.standIn layout out.disk)).toList
        exportedLd :=
          out.exportedLd ++ (ldAsset layout (p, p.standIn layout out.disk)).toList } := by
  refine ⟨[(p, p.standIn layout out.disk)], ?_, ?_, ?_, ?_⟩
  · exact (placeAll_cons_eq_ok _ _ _ _ _ _).2 ⟨disk, [], h, rfl, rfl⟩
  · rw [List.flatMap_singleton]
  · cases p <;> rfl
  · cases p <;> rfl

/-- One token is exported as its item is planned. -/
theorem exportToken_spec {layout : Layout κ} (lookup : List (List Char × Path))
    (dir : Option Path) {token : List Char} {out out' : Exported κ γ}
    (h : exportToken layout token out = .ok out') :
    Follows layout [(readItem token, placementOf layout lookup dir (readItem token))] out out' := by
  rw [exportToken] at h
  rw [readItem]
  -- an archive is copied, the map is replaced, any other word is kept
  split at h
  next harchive =>
    rw [if_pos harchive]
    by_cases hcore : classifyProjectLibrary (archiveSource layout token) = some .core
    · -- The archive of the core is left to the platform.
      simp only [hcore, if_true, Except.ok.injEq] at h
      simp only [placementOf, hcore, if_true, ← h]
      exact follows_text layout (.archive token) out
    · simp only [if_neg hcore] at h
      simp only [placementOf, if_neg hcore]
      rcases hcopy : copyFile layout out.disk
          (resolveBkLibExportSource layout out.disk (archiveSource layout token))
          (classifyExportPath layout (archiveSource layout token)
            (classifyProjectLibrary (archiveSource layout token))) with _ | disk
      · rw [hcopy] at h
        exact absurd h (by simp only [bind, Except.bind, reduceCtorEq, not_false_eq_true])
      · have hpath := Placement.exportedPath_dst layout (.archive (archiveSource layout token))
        rw [Placement.dst] at hpath
        simp only [hcopy, hpath, bind, Except.bind, Except.ok.injEq] at h
        rw [← h]
        have hfollows : Follows layout
            [(.archive token, some (.archive (archiveSource layout token)))] out _ :=
          follows_copy hcopy
        simp only [ldAsset, Option.toList_none, List.append_nil] at hfollows
        exact hfollows
  next harchive =>
    rw [if_neg harchive]
    split at h
    next hmap =>
      rw [if_pos hmap, ← Except.ok.inj h]
      exact follows_text layout (.mapFile token) out
    next hmap =>
      rw [if_neg hmap, ← Except.ok.inj h]
      exact follows_text layout (.flag token) out

/-- A script is exported as its item is planned. -/
theorem exportScript_spec {layout : Layout κ} {src : Path} (name : List Char)
    {out out' : Exported κ γ} (h : exportScript layout src out = .ok out') :
    Follows layout [(.script name, some (.script src))] out out' := by
  rw [exportScript] at h
  rcases hcopy : copyFile layout out.disk src (scriptDst layout src) with _ | disk
  · rw [hcopy] at h
    exact absurd h (by simp only [bind, Except.bind, reduceCtorEq, not_false_eq_true])
  · have hpath := Placement.exportedPath_dst layout (.script src)
    rw [Placement.dst] at hpath
    simp only [hcopy, hpath, bind, Except.bind, Except.ok.injEq] at h
    rw [← h]
    have hfollows : Follows layout [(.script name, some (.script src))] out _ :=
      follows_copy hcopy
    simp only [libAsset, Option.toList_none, List.append_nil] at hfollows
    exact hfollows

omit [DecidableEq κ] in
theorem dirBehind_readItem (layout : Layout κ) (dir : Option Path) (token : List Char) :
    dirBehind layout dir (readItem token) = dir := by
  rw [readItem]
  split
  next => rfl
  next => split <;> rfl

/-- The loop does what is planned for the items of the line. -/
theorem exportFrom_spec {layout : Layout κ} {lookup : List (List Char × Path)} {dir : Option Path}
    {line : List (List Char)} {out out' : Exported κ γ}
    (h : exportFrom layout lookup dir line out = .ok out') :
    Follows layout (plan layout lookup dir (readItems line)) out out' := by
  induction line using readItems.induct generalizing dir out with
  | case1 =>
      rw [exportFrom, Except.ok.injEq] at h
      rw [readItems, plan, h]
      exact Follows.nil layout out'
  | case2 token =>
      rw [readItems, plan, plan]
      exact exportToken_spec lookup dir (by rwa [exportFrom] at h)
  | case3 next rest ih =>
      rw [exportFrom, if_pos rfl] at h
      rw [readItems, if_pos rfl, plan]
      -- A search directory leaves no token.
      have hnone := follows_text layout (.searchDir next) out
      rw [exportedTokens, List.append_nil] at hnone
      exact hnone.append (ih h)
  | case4 next rest hne ih =>
      rw [exportFrom, if_neg hne, if_pos rfl] at h
      rw [readItems, if_neg hne, if_pos rfl, plan]
      obtain ⟨mid, hscript, hrest⟩ := (Stages.bind_eq_ok _ _ _).1 h
      exact (exportScript_spec next hscript).append (ih hrest)
  | case5 token next rest hL hT ih =>
      rw [exportFrom, if_neg hL, if_neg hT] at h
      rw [readItems, if_neg hL, if_neg hT, plan, dirBehind_readItem]
      obtain ⟨mid, htoken, hrest⟩ := (Stages.bind_eq_ok _ _ _).1 h
      exact (exportToken_spec lookup dir htoken).append (ih hrest)

end Tools

end ArduinoBeken
