import Mathlib.Tactic.Ring
import Federation.Proofs.Glob.Starts
import Federation.Workspace.Packages

/-!
# The package index of a workspace, from any path to its root

Two paths to the root of a workspace give the same package files in the same order, and each file is seen from both as
the same text, so the exclusions decide alike and the index is the same (`index_eq`). This asks of a path that a search
below it sees its findings as what they are called there (`Sighted`).
-/

namespace Federation

open Federation.Path GlobPattern Disk

variable {d : Disk} {l cwd : Location} {root root' : List Char} {glob : String} {pats : List GlobPattern}

namespace PackageGlobs

/-- The names of the package files that a glob selects. -/
def fileNames (glob : String) : List Name := rawNames glob.toList ++ [packageFile.toList]

/-- The idle names with which a glob begins. -/
def idleNames (glob : String) : List Name := (rawNames glob.toList).takeWhile isIdle

/-- The components that are searched for, if the whole pattern can be read. -/
def searched? (glob : String) : Option (List GlobPattern) :=
  if (parse? (glob.toList ++ '/' :: packageFile.toList)).isSome then ((fileNames glob).dropWhile isIdle).mapM parse?
  else none

theorem isIdle_of_mem_idleNames : ∀ n ∈ idleNames glob, isIdle n = true := fun _ hn => List.mem_takeWhile_imp hn

theorem fileNames_eq (glob : String) : fileNames glob = idleNames glob ++ (fileNames glob).dropWhile isIdle := by
  have hfile : isIdle packageFile.toList = false := by decide
  rw [fileNames, idleNames]
  generalize rawNames glob.toList = ns
  induction ns with
  | nil => rw [List.takeWhile_nil, List.nil_append, List.nil_append, dropWhile_of_not_isIdle hfile]
  | cons n ns ih =>
    cases hn : isIdle n with
    | true =>
      rw [List.takeWhile_cons_of_pos hn, List.cons_append, List.dropWhile_cons_of_pos hn, List.cons_append, ← ih]
    | false =>
      rw [List.takeWhile_cons_of_neg (by rw [hn]; exact Bool.false_ne_true), List.cons_append,
        dropWhile_of_not_isIdle hn, List.nil_append]

theorem searched_ne_nil (glob : String) : (fileNames glob).dropWhile isIdle ≠ [] := by
  intro hnil
  have hall : packageFile.toList ∈ fileNames glob := List.mem_append_right _ (List.mem_singleton_self _)
  rw [fileNames_eq, hnil, List.append_nil] at hall
  have hfile : isIdle packageFile.toList = false := by decide
  rw [isIdle_of_mem_idleNames _ hall] at hfile
  cases hfile

theorem getLast?_searched (glob : String) :
    ((fileNames glob).dropWhile isIdle).getLast? = some packageFile.toList := by
  have hlast : (fileNames glob).getLast? = some packageFile.toList := List.getLast?_concat
  rwa [fileNames_eq, List.getLast?_append_of_ne_nil _ (searched_ne_nil glob)] at hlast

theorem forall₂_of_mapM {α β : Type} {f : α → Option β} {as : List α} {bs : List β} (h : as.mapM f = some bs) :
    List.Forall₂ (fun a b => f a = some b) as bs := by
  induction as generalizing bs with
  | nil => cases h; exact .nil
  | cons a as ih =>
    rw [List.mapM_cons] at h
    obtain ⟨b, hb, hrest⟩ := Option.bind_eq_some_iff.1 h
    obtain ⟨bs', hbs, hall⟩ := Option.bind_eq_some_iff.1 hrest
    cases hall
    exact .cons hb (ih hbs)

theorem mapM_of_forall₂ {α β : Type} {f : α → Option β} {as : List α} {bs : List β}
    (h : List.Forall₂ (fun a b => f a = some b) as bs) : as.mapM f = some bs := by
  induction h with
  | nil => rfl
  | cons ha _ ih =>
    rw [List.mapM_cons, ha, ih]
    rfl

theorem selects_of_parsed {ns : List Name} {file : Name}
    (h : List.Forall₂ (fun n pat => parse? n = some pat) ns pats) (hfree : ∀ n ∈ ns, '/' ∉ n)
    (hlast : ns.getLast? = some file) (hfile : (parse? file).bind literal? = some file) : Selects file pats := by
  induction h with
  | nil => cases hlast
  | @cons n pat ns pats hpat hrest ih =>
    obtain ⟨hn, hns⟩ := List.forall_mem_cons.1 hfree
    have hhead (m : Name) (hm : pat.literal? = some m) : '/' ∉ m := literal?_parse? hpat hm ▸ hn
    cases hrest with
    | nil =>
      obtain rfl : n = file := Option.some.inj hlast
      rw [hpat, Option.bind_some] at hfile
      refine ⟨fun p hp m hm => ?_, pat, rfl, hfile⟩
      rw [List.mem_singleton.1 hp] at hm
      exact hhead m hm
    | cons hpat' hrest' =>
      rw [List.getLast?_cons_cons] at hlast
      obtain ⟨hfree', last, hlast', hlit⟩ := ih hns hlast
      refine ⟨fun p hp m hm => ?_, last, by rwa [List.getLast?_cons_cons], hlit⟩
      rcases List.mem_cons.1 hp with rfl | hp
      · exact hhead m hm
      · exact hfree' p hp m hm

theorem slash_not_mem_searched (glob : String) : ∀ n ∈ (fileNames glob).dropWhile isIdle, '/' ∉ n := by
  intro n hn
  have hall : n ∈ fileNames glob := List.IsSuffix.subset (List.dropWhile_suffix _) hn
  rcases List.mem_append.1 hall with hglob | hfile
  · exact slash_not_mem_of_mem_rawNames hglob
  · rw [List.mem_singleton.1 hfile]
    decide

theorem selects_of_searched? (h : searched? glob = some pats) :
    Selects packageFile.toList pats ∧ ∀ pat n, pats.head? = some pat → pat.literal? = some n → isIdle n = false := by
  have hmap : ((fileNames glob).dropWhile isIdle).mapM parse? = some pats := by
    unfold searched? at h
    split at h
    · exact h
    · cases h
  have hall := forall₂_of_mapM hmap
  refine ⟨selects_of_parsed hall (slash_not_mem_searched glob) (getLast?_searched glob) (by decide), ?_⟩
  intro pat n hpat hlit
  have hne := searched_ne_nil glob
  have hhead := List.head_dropWhile_not isIdle hne
  generalize (fileNames glob).dropWhile isIdle = ns at hall hne hhead
  cases hall with
  | nil => exact absurd rfl hne
  | cons hparse hrest =>
    cases hpat
    rw [literal?_parse? hparse hlit]
    exact hhead

theorem isAbsolute_filePattern (hroot : root ≠ []) (glob : String) :
    isAbsolute (filePattern root glob) = isAbsolute root := by
  obtain ⟨c, r, rfl⟩ := List.exists_cons_of_ne_nil hroot
  rw [filePattern, escape_cons]
  cases hc : isSpecial c with
  | false => rfl
  | true =>
    have hslash : c ≠ '/' := by
      rintro rfl
      cases hc
    rw [if_pos rfl]
    show false = (some c == some '/')
    rw [eq_comm, beq_eq_false_iff_ne]
    exact fun h => hslash (Option.some.inj h)

theorem rawNames_filePattern (root : List Char) (glob : String) :
    rawNames (filePattern root glob) =
      (rawNames root ++ idleNames glob).map escape ++ (fileNames glob).dropWhile isIdle := by
  have hfile : rawNames packageFile.toList = [packageFile.toList] := rawNames_of_free (by decide)
  have hidle : (idleNames glob).map escape = idleNames glob := by
    have hsame : ∀ n ∈ idleNames glob, escape n = id n := by
      intro n hn
      rcases isIdle_iff.1 (isIdle_of_mem_idleNames n hn) with rfl | rfl <;> rfl
    rw [List.map_congr_left hsame, List.map_id]
  rw [filePattern, rawNames_append, rawNames_append, hfile, rawNames_escape, List.map_append, hidle, List.append_assoc,
    ← fileNames_eq]
  rfl

theorem mapM_parse?_escaped (ns ms : List Name) :
    (ns.map escape ++ ms).mapM parse? = (ms.mapM parse?).map (ns.map exact ++ ·) := by
  induction ns with
  | nil => simp
  | cons n ns ih =>
    rw [List.map_cons, List.cons_append, List.mapM_cons, parse?_escape, ih]
    cases ms.mapM parse? <;> rfl

theorem components_filePattern (hroot : root ≠ []) (glob : String) :
    (if isAbsolute (filePattern root glob) then (rawNames (filePattern root glob)).dropWhile isIdle
      else rawNames (filePattern root glob)) =
      (fixedNames root (idleNames glob)).map escape ++ (fileNames glob).dropWhile isIdle := by
  rw [isAbsolute_filePattern hroot, rawNames_filePattern, fixedNames]
  split
  · have hidle : isIdle ∘ escape = isIdle := funext isIdle_escape
    have hsearched : ((fileNames glob).dropWhile isIdle).dropWhile isIdle = (fileNames glob).dropWhile isIdle := by
      obtain ⟨n, ns, hns⟩ := List.exists_cons_of_ne_nil (searched_ne_nil glob)
      have hhead := List.head_dropWhile_not isIdle (searched_ne_nil glob)
      simp only [hns, List.head_cons] at hhead
      rw [hns, dropWhile_of_not_isIdle hhead]
    rw [List.dropWhile_append, List.dropWhile_map, hidle, hsearched]
    split
    · rename_i hempty
      rw [List.isEmpty_iff.1 hempty, List.nil_append]
    · rfl
  · rfl

theorem mul_le_fuel (r p n : Nat) : p * (2 * n + 4) + 2 * (n + 1) + 2 * r ≤ (r + p + 1) * (n + 2) * 2 := by
  have hr : 2 * r ≤ r * (2 * n + 4) := by
    rw [Nat.mul_comm]
    exact Nat.mul_le_mul_left r (Nat.le_add_left 2 (2 * n + 2))
  have hall : (r + p + 1) * (n + 2) * 2 = p * (2 * n + 4) + r * (2 * n + 4) + (2 * n + 4) := by ring
  omega

theorem expand_components (h : d.IsWellFormed) (hroot : d.lookup cwd root = .found l .directory)
    (hpoint : isAbsolute root = false → [] ∉ (fixedNames root (idleNames glob)).takeWhile isIdle) (hpats : pats ≠ []) :
    ∃ fuel, Enough d l pats fuel ∧ d.lookup cwd (fixedPath root (idleNames glob)) = .found l .directory ∧
      d.expand cwd
          ((((fixedNames root (idleNames glob)).map exact ++ pats).length + 1) * (d.nodes.length + 2) * 2)
          ((fixedNames root (idleNames glob)).map exact ++ pats) (startOf root) =
        d.expand cwd fuel pats (fixedPath root (idleNames glob)) := by
  have hidle : ∀ n ∈ idleNames glob, isIdle n = true := isIdle_of_mem_idleNames
  obtain ⟨l₀, hstart, hwalk⟩ := walk_fixedNames hroot hidle
  have hpoint' : startOf root = ['.'] → [] ∉ (fixedNames root (idleNames glob)).takeWhile isIdle := by
    intro hdot
    refine hpoint ?_
    unfold startOf at hdot
    cases habs : isAbsolute root with
    | true => rw [habs] at hdot; cases hdot
    | false => rfl
  -- each fixed name takes at most two calls, and the rest is enough for the search
  have hfuel := mul_le_fuel (fixedNames root (idleNames glob)).length pats.length d.nodes.length
  obtain ⟨hlookup, k, hk, hexpand⟩ := expand_fixed h hstart hwalk (slash_not_mem_fixedNames hidle) hpoint' hpats
    (((fixedNames root (idleNames glob)).length + pats.length + 1) * (d.nodes.length + 2) * 2 -
      2 * (fixedNames root (idleNames glob)).length)
  refine ⟨k, ?_, hlookup, ?_⟩
  · unfold Enough
    omega
  · rw [List.length_append, List.length_map, fixedPath, ← hexpand, Nat.sub_add_cancel (by omega)]

/-- The package files of a glob are searched for below the path to which the fixed names lead. -/
theorem glob_filePattern (h : d.IsWellFormed) (hroot : d.lookup cwd root = .found l .directory)
    (hpoint : isAbsolute root = false → [] ∉ (fixedNames root (idleNames glob)).takeWhile isIdle) :
    (searched? glob = none → d.glob cwd (filePattern root glob) = []) ∧
      ∀ pats, searched? glob = some pats → ∃ fuel, Enough d l pats fuel ∧
        d.lookup cwd (fixedPath root (idleNames glob)) = .found l .directory ∧
        d.glob cwd (filePattern root glob) = d.expand cwd fuel pats (fixedPath root (idleNames glob)) := by
  have hne : root ≠ [] := by
    rintro rfl
    cases hroot
  have hparse : (parse? (filePattern root glob)).isSome =
      (parse? (glob.toList ++ '/' :: packageFile.toList)).isSome := isSome_parse?_below root _
  have hcomponents : (if isAbsolute (filePattern root glob) then (rawNames (filePattern root glob)).dropWhile isIdle
      else rawNames (filePattern root glob)).mapM parse? =
      (((fileNames glob).dropWhile isIdle).mapM parse?).map ((fixedNames root (idleNames glob)).map exact ++ ·) := by
    rw [components_filePattern hne, mapM_parse?_escaped]
  rw [Disk.glob]
  cases hwhole : parse? (filePattern root glob) with
  | none =>
    rw [hwhole] at hparse
    refine ⟨fun _ => rfl, fun pats hpats => ?_⟩
    rw [searched?, ← hparse] at hpats
    cases hpats
  | some whole =>
    rw [hwhole] at hparse
    have hsearched : searched? glob = ((fileNames glob).dropWhile isIdle).mapM parse? := by
      rw [searched?, ← hparse]
      rfl
    dsimp only
    rw [hcomponents, ← hsearched, isAbsolute_filePattern hne]
    cases hpats : searched? glob with
    | none => exact ⟨fun _ => rfl, nofun⟩
    | some pats =>
      refine ⟨nofun, fun pats' hpats' => ?_⟩
      cases hpats'
      have hpne : pats ≠ [] := by
        rintro rfl
        obtain ⟨p, hp, -⟩ := (selects_of_searched? hpats).1.last
        cases hp
      exact expand_components h hroot hpoint hpne

theorem twin_glob (h : d.IsWellFormed) (hroot : d.lookup cwd root = .found l .directory)
    (hroot' : d.lookup cwd root' = .found l .directory) (hs : Sighted root (idleNames glob))
    (hs' : Sighted root' (idleNames glob)) :
    List.Forall₂ (Twin d cwd root root' packageFile.toList) (d.glob cwd (filePattern root glob))
      (d.glob cwd (filePattern root' glob)) := by
  have hidle : ∀ n ∈ idleNames glob, isIdle n = true := isIdle_of_mem_idleNames
  obtain ⟨hnone, hsome⟩ := glob_filePattern h hroot hs.free
  obtain ⟨hnone', hsome'⟩ := glob_filePattern h hroot' hs'.free
  cases hpats : searched? glob with
  | none =>
    rw [hnone hpats, hnone' hpats]
    exact .nil
  | some pats =>
    obtain ⟨fuel, hfuel, hstart, hglob₁⟩ := hsome pats hpats
    obtain ⟨fuel', hfuel', hstart', hglob₂⟩ := hsome' pats hpats
    obtain ⟨hselects, hhead⟩ := selects_of_searched? hpats
    have htogether : Together d cwd root root' l .directory [] (fixedPath root (idleNames glob))
        (fixedPath root' (idleNames glob)) :=
      ⟨hstart, hstart', sees_start hs hidle, sees_start hs' hidle⟩
    rw [hglob₁, hglob₂]
    exact twins h (by decide) fuel fuel' pats l _ [] _ _ hselects htogether hfuel hfuel' fun _ => hhead

theorem twin_files (h : d.IsWellFormed) (g : PackageGlobs) (hroot : d.lookup cwd root = .found l .directory)
    (hroot' : d.lookup cwd root' = .found l .directory) (hs : ∀ glob ∈ g.included, Sighted root (idleNames glob))
    (hs' : ∀ glob ∈ g.included, Sighted root' (idleNames glob)) :
    List.Forall₂ (Twin d cwd root root' packageFile.toList) (g.files d cwd root) (g.files d cwd root') :=
  forall₂_flatMap fun glob hglob => twin_glob h hroot hroot' (hs glob hglob) (hs' glob hglob)

theorem packageAt?_eq (g : PackageGlobs) {q q' : List Char}
    (h : Twin d cwd root root' packageFile.toList q q') : g.packageAt? d cwd root q = g.packageAt? d cwd root' q' := by
  obtain ⟨l, node, S, hq, hlast⟩ := h
  have hproper : IsProper packageFile.toList := by
    constructor <;> decide
  obtain ⟨dir, hdir⟩ := hq.sees.exists_parent hlast hproper
  obtain ⟨dir', hdir'⟩ := hq.sees'.exists_parent hlast hproper
  have hadmits : g.admits root dir = g.admits root' dir' := by
    rw [admits, admits, hq.sees.parent hlast hproper hdir, hq.sees'.parent hlast hproper hdir']
  have htext : d.readText? cwd q = d.readText? cwd q' := by
    rw [readText?, readText?, readOctets?, readOctets?, hq.left, hq.right]
  rw [packageAt?, packageAt?, hdir, hdir']
  show (if g.admits root dir = true then _ else _) = if g.admits root' dir' = true then _ else _
  rw [hadmits, htext]

/-- The package index of a workspace is the same for every path to its root from which its packages are seen as they are
called below it. -/
theorem index_eq (h : d.IsWellFormed) (g : PackageGlobs) (hroot : d.lookup cwd root = .found l .directory)
    (hroot' : d.lookup cwd root' = .found l .directory) (hs : ∀ glob ∈ g.included, Sighted root (idleNames glob))
    (hs' : ∀ glob ∈ g.included, Sighted root' (idleNames glob)) : g.index d cwd root = g.index d cwd root' := by
  have hfiles := twin_files h g hroot hroot' hs hs'
  rw [index, index]
  generalize KeyMap.empty = found
  generalize g.files d cwd root = files at hfiles
  generalize g.files d cwd root' = files' at hfiles
  induction hfiles generalizing found with
  | nil => rfl
  | cons hfile _ ih =>
    rw [List.foldl_cons, List.foldl_cons, packageAt?_eq g hfile, ih]

end PackageGlobs

end Federation
