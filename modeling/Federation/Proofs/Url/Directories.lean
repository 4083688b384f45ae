import Federation.Proofs.Url.Rereading

/-!
# The directory of a URL

The public path of an entry is the URL without query and fragment, its path cut behind the last slash
(`publicPathOf_directory`). This takes that a drive letter is written with a colon, as the URL standard has it: setting
a path writes one, also where the parser has left a bar alone, as it does behind three slashes
(`Url.Made.path_directory`). A URL that reads back has a directory that reads back (`ReadsBack.directory`), so the
public path of a public path is that path itself.
-/

namespace Federation

/-! ### Walking to a directory -/

namespace UrlPath
variable {isFile : Bool} {dirs front pre segs : List (List Char)} {s : List Char}

/-- The directories after a segment that is not the last one. -/
def enter (isFile : Bool) (dirs : List (List Char)) (seg : List Char) : List (List Char) :=
  if isDoubleDot seg then parent dirs else if isSingleDot seg then dirs else place isFile dirs seg

theorem walk_enter (dirs : List (List Char)) (hne : segs ≠ []) :
    walk isFile dirs (s :: segs) = walk isFile (enter isFile dirs s) segs := by
  rw [walk.eq_3 _ _ _ _ hne, enter]
  split_ifs <;> rfl

theorem walk_concat (isFile : Bool) (dirs front : List (List Char)) (s : List Char) :
    walk isFile dirs (front ++ [s]) = walk isFile (front.foldl (enter isFile) dirs) [s] := by
  induction front generalizing dirs with
  | nil => rfl
  | cons seg front ih =>
    rw [List.cons_append, walk_enter _ (List.append_ne_nil_of_right_ne_nil front (List.cons_ne_nil s [])), ih,
      List.foldl_cons]

theorem exists_tidy_concat (isFile : Bool) (dirs : List (List Char)) :
    ∃ ds, ∀ s, tidy isFile (dirs ++ [s]) = ds ++ [s] := by
  cases isFile with
  | false => exact ⟨dirs, fun s => rfl⟩
  | true =>
    induction dirs with
    | nil => exact ⟨[], fun s => by cases s <;> rfl⟩
    | cons d dirs ih =>
      cases d with
      | cons c d => exact ⟨(c :: d) :: dirs, fun s => rfl⟩
      | nil =>
        obtain ⟨ds, hds⟩ := ih
        refine ⟨ds, fun s => ?_⟩
        rw [← hds]
        cases dirs <;> rfl

theorem walk_nil (isFile : Bool) (dirs : List (List Char)) : walk isFile dirs [[]] = dirs ++ [[]] := by
  have hplace : place isFile dirs [] = dirs ++ [[]] := by
    unfold place
    split
    · rename_i hfirst
      rw [Bool.and_eq_true, List.isEmpty_iff] at hfirst
      rw [hfirst.2]
      rfl
    · rfl
  rw [walk]
  exact hplace

/-- A first segment that stays what it is is not split. -/
theorem eq_nil_of_place (h : tidy true (place true [] s) = pre ++ [s]) : pre = [] := by
  have hsingle {t : List Char} (h : tidy true [t] = pre ++ [s]) : pre = [] := by
    have hself : tidy true [t] = [] ++ [t] := by cases t <;> rfl
    exact (List.append_inj' (hself.symm.trans h) rfl).1.symm
  replace h : tidy true (if isDriveLetter s then [normalizeDrive s] else splitDrive s) = pre ++ [s] := h
  split at h
  · exact hsingle h
  · unfold splitDrive at h
    split at h
    · split at h
      · rename_i c e r _ _
        have hparts : [[c, ':']] ++ [e :: r] = pre ++ [c :: ':' :: e :: r] := h
        have hlength := congrArg (fun ss => (ss.map List.length).getLast?) hparts
        simp at hlength
      · exact hsingle h
    · exact hsingle h

/-- If the last segment stays what it is, it stands in the directory in which the empty segment ends the walk. -/
theorem walk_directory (h : tidy isFile (walk isFile [] (front ++ [s])) = pre ++ [s]) :
    tidy isFile (walk isFile [] (front ++ [[]])) = pre ++ [[]] := by
  rw [walk_concat] at h ⊢
  generalize front.foldl (enter isFile) [] = ds at h ⊢
  rw [walk_nil]
  have hlast {es : List (List Char)} {x : List Char} (hes : tidy isFile (es ++ [x]) = pre ++ [s]) :
      x = s ∧ tidy isFile (es ++ [[]]) = pre ++ [[]] := by
    obtain ⟨fs, hfs⟩ := exists_tidy_concat isFile es
    rw [hfs] at hes ⊢
    obtain ⟨rfl, hx⟩ := List.append_inj' hes rfl
    exact ⟨List.cons.inj hx |>.1, rfl⟩
  rw [walk] at h
  split_ifs at h with hdots hdot
  · cases (hlast h).1
    cases hdots
  · cases (hlast h).1
    cases hdot
  · by_cases hfirst : (isFile && ds.isEmpty) = true
    · obtain ⟨hfile, hnil⟩ := Bool.and_eq_true_iff.1 hfirst
      cases hfile
      cases List.isEmpty_iff.1 hnil
      rw [eq_nil_of_place h]
      rfl
    · rw [place, if_neg hfirst] at h
      exact (hlast h).2

theorem parent_drive {D : List Char} (hD : isDriveLetter D = true) (front dirs : List (List Char)) :
    parent (front ++ D :: dirs) = front ++ D :: parent dirs := by
  unfold parent
  rcases List.eq_nil_or_concat dirs with rfl | ⟨init, last, rfl⟩
  · simp [hD]
  · have hinit : (front ++ D :: (init ++ [last])).dropLast = front ++ D :: init := by
      rw [← List.cons_append, ← List.append_assoc, List.dropLast_concat]
    have hlast : (front ++ D :: (init ++ [last])).getLast? = some last := by
      rw [← List.cons_append, ← List.append_assoc, List.getLast?_concat]
    rw [List.concat_eq_append, hlast, List.getLast?_concat]
    dsimp only
    split
    · rfl
    · rw [hinit, List.dropLast_concat]

/-- A walk does not leave a drive, and goes on from there as if it were the root. -/
theorem walk_drive {D : List Char} (hD : isDriveLetter D = true) (front dirs segs : List (List Char)) :
    walk true (front ++ D :: dirs) segs = front ++ D :: walk false dirs segs := by
  have hplace (ds : List (List Char)) (seg : List Char) :
      place true (front ++ D :: ds) seg = front ++ D :: place false ds seg := by
    unfold place
    simp
  fun_induction walk false dirs segs with
  | case1 dirs => simp [walk]
  | case2 dirs seg hdots => simp [walk, hdots, parent_drive hD]
  | case3 dirs seg hdots hdot => simp [walk, hdots, hdot]
  | case4 dirs seg hdots hdot => simp [walk, hdots, hdot, hplace]
  | case5 dirs seg segs hne hdots ih => rw [walk_enter _ hne, enter, if_pos hdots, parent_drive hD, ih]
  | case6 dirs seg segs hne hdots hdot ih => rw [walk_enter _ hne, enter, if_neg hdots, if_pos hdot, ih]
  | case7 dirs seg segs hne hdots hdot ih => rw [walk_enter _ hne, enter, if_neg hdots, if_neg hdot, hplace, ih]

theorem not_dot_of_drive {D : List Char} (hD : isDriveLetter D = true) :
    isDoubleDot D = false ∧ isSingleDot D = false := by
  have hnone : dropDot? D = none := by
    unfold isDriveLetter at hD
    split at hD
    · rename_i c d
      rw [Bool.and_eq_true, Bool.or_eq_true, beq_iff_eq, beq_iff_eq] at hD
      unfold dropDot?
      split
      · rename_i heq
        cases heq
        cases hD.1
      all_goals simp_all
    · cases hD
  rw [isDoubleDot, isSingleDot, hnone]
  exact ⟨rfl, rfl⟩

theorem enter_drive {D : List Char} (hD : isDriveLetter D = true) (dirs : List (List Char)) :
    enter true dirs D = if dirs.isEmpty then [normalizeDrive D] else dirs ++ [D] := by
  have ⟨hdots, hdot⟩ := not_dot_of_drive hD
  rw [enter, hdots, hdot, place, hD]
  cases dirs <;> rfl

/-- A drive letter behind an empty first segment stays as it is. -/
theorem tidy_walk_root {D : List Char} (hD : isDriveLetter D = true) (hne : segs ≠ []) :
    tidy true (walk true [] ([] :: D :: segs)) = D :: walk false [] segs := by
  have hroot : enter true [] [] = [[]] := by decide
  rw [walk_enter _ (List.cons_ne_nil _ _), hroot, walk_enter _ hne, enter_drive hD]
  show tidy true (walk true ([[]] ++ D :: []) segs) = _
  rw [walk_drive hD]
  cases D with
  | nil => cases hD
  | cons c D => rfl

/-- A drive letter that comes first is written with a colon. -/
theorem tidy_walk_first {D : List Char} (hD : isDriveLetter D = true) (hne : segs ≠ []) :
    tidy true (walk true [] (D :: segs)) = normalizeDrive D :: walk false [] segs := by
  have hcolon : isDriveLetter (normalizeDrive D) = true := by
    unfold isDriveLetter at hD
    split at hD
    · rw [Bool.and_eq_true] at hD
      simp [normalizeDrive, isDriveLetter, hD.1]
    · cases hD
  rw [walk_enter _ hne, enter_drive hD]
  show tidy true (walk true ([] ++ normalizeDrive D :: []) segs) = _
  rw [walk_drive hcolon]
  cases h : normalizeDrive D with
  | nil =>
    rw [h] at hcolon
    cases hcolon
  | cons c D => rfl

/-! ### Directories -/

/-- Segments that begin with a drive letter which has a bar. -/
def Barred (ss : List (List Char)) : Prop := ∃ c rest, ss = [c, '|'] :: rest ∧ c.isAlpha = true

theorem isDriveLetter_bar {c : Char} (h : c.isAlpha = true) : isDriveLetter [c, '|'] = true := by
  rw [isDriveLetter, h]
  rfl

/-- A drive letter without a bar is written as it is. -/
theorem normalizeDrive_eq {D : List Char} (hD : isDriveLetter D = true) (h : ∀ c, c.isAlpha = true → D ≠ [c, '|']) :
    normalizeDrive D = D := by
  unfold isDriveLetter at hD
  split at hD
  · rename_i c d
    rw [Bool.and_eq_true, Bool.or_eq_true, beq_iff_eq, beq_iff_eq] at hD
    rcases hD.2 with rfl | rfl
    · rfl
    · exact absurd rfl (h c hD.1)
  · cases hD

theorem directory_concat (pre : List (List Char)) (s : List Char) (h : isFile = true → ¬Barred pre) :
    directory isFile (segments (pre ++ [s])) = segments (pre ++ [[]]) := by
  rw [directory, List.dropLast_concat]
  cases pre with
  | nil => rfl
  | cons d ds =>
    dsimp only
    split
    · rename_i hdrive
      rw [Bool.and_eq_true] at hdrive
      rw [normalizeDrive_eq hdrive.2 fun c hc hd => h hdrive.1 ⟨c, ds, by rw [hd], hc⟩]
    · rfl

theorem directory_barred {c : Char} (hc : c.isAlpha = true) (ds : List (List Char)) (s : List Char) :
    directory true (segments ([c, '|'] :: ds ++ [s])) = segments ([c, ':'] :: ds ++ [[]]) := by
  rw [directory, List.dropLast_concat]
  dsimp only
  rw [isDriveLetter_bar hc]
  rfl

end UrlPath

namespace Url
variable {u : Url} {ss dirs pre : List (List Char)} {s t : List Char}

/-! ### Reading a directory -/

theorem toList_eq (u : Url) :
    u.toList = u.beforePath ++ u.pathGuard ++ u.path.text ++ tailText u.query u.fragment :=
  List.append_assoc ..

/-- Segments that are read as they are, in the place of the path of a URL. -/
structure ReadsPath (u : Url) (ss : List (List Char)) : Prop where
  segments : u.rereadSegments ss = ss
  drive : u.kind = .file → (UrlPath.segments ss).hasDrive = true → u.authority = some (hostOnly none)

theorem ReadsBack.readsPath (hback : u.ReadsBack) (hparted : u.Parted) (hwritten : u.Written)
    (hpath : u.path = .segments ss) (hne : ss ≠ []) : u.ReadsPath ss := by
  have hbase : u.canBeBase = true := by rw [canBeBase, hpath]
  have hvisible : Visible (tailText u.query u.fragment) := by
    have h := hwritten.visible hbase
    rw [toList_eq] at h
    exact (visible_append.1 h).2
  have hread := parse_reread hparted hwritten (hback.readsAuthority hparted hwritten hpath) hne (hparted.path ss hpath)
    (by rw [← hpath]) endsPath_head?_tailText hvisible
  rw [← hpath, ← toList_eq] at hread
  have hsame : u.reread ss (tailText u.query u.fragment) = u := Except.ok.inj (hread.symm.trans hback)
  have hsegments : u.rereadSegments ss = ss :=
    UrlPath.segments.inj ((congrArg Url.path hsame).trans hpath)
  refine ⟨hsegments, fun hkind hdrive => ?_⟩
  have hauthority := congrArg Url.authority hsame
  rw [reread, hsegments, if_pos ⟨hkind, hdrive⟩] at hauthority
  exact hauthority.symm

/-- The URL with another path and nothing behind it. -/
def atSegments (u : Url) (ss : List (List Char)) : Url :=
  { u with path := .segments ss, query := none, fragment := none }

theorem ReadsPath.readsBack (h : u.ReadsPath ss) (hparted : u.Parted) (hwritten : u.Written)
    (hauthority : u.ReadsAuthority) (hne : ss ≠ [])
    (hss : ∀ s ∈ ss, ∀ c ∈ s, UrlPath.SegmentChar u.kind.isSpecial c)
    (hguard : (u.atSegments ss).pathGuard = u.pathGuard) : (u.atSegments ss).ReadsBack := by
  have hread := parse_reread hparted hwritten hauthority hne hss hguard (t := []) nofun nofun
  have hsame : u.reread ss [] = u.atSegments ss := by
    rw [reread, h.segments]
    split
    · rename_i hdrive
      rw [← h.drive hdrive.1 hdrive.2]
      rfl
    · rfl
  have htext : (u.atSegments ss).toList =
      u.beforePath ++ u.pathGuard ++ (UrlPath.segments ss).text ++ tailText none none := by
    rw [toList_eq, hguard]
    rfl
  rw [ReadsBack, text, htext]
  exact hread.trans (congrArg _ hsame)

theorem pathGuard_directory (u : Url) (pre : List (List Char)) (s : List Char) :
    (u.atSegments (pre ++ [[]])).pathGuard = (u.atSegments (pre ++ [s])).pathGuard := by
  unfold pathGuard atSegments
  cases u.authority with
  | some a => rfl
  | none =>
    rcases pre with _ | ⟨d, _ | ⟨e, ds⟩⟩
    · cases s <;> rfl
    · cases d <;> rfl
    · cases d <;> rfl

/-- Up to its last segment a path is read as it is, if it is read so as a whole. -/
theorem ReadsPath.directory (h : u.ReadsPath (pre ++ [s])) : u.ReadsPath (pre ++ [[]]) := by
  have hsegments := h.segments
  rw [rereadSegments, ← List.append_assoc] at hsegments
  refine ⟨?_, fun hkind hdrive => h.drive hkind ?_⟩
  · rw [rereadSegments, ← List.append_assoc]
    exact UrlPath.walk_directory hsegments
  · cases pre with
    | nil => cases hdrive
    | cons d ds => exact hdrive

/-- A drive letter with a bar is read as it is only without a host, and then one with a colon is, too. -/
theorem ReadsPath.barred {c : Char} (hc : c.isAlpha = true) (hparted : u.Parted) (hkind : u.kind = .file)
    (h : u.ReadsPath ([c, '|'] :: (pre ++ [s]))) : u.ReadsPath ([c, ':'] :: (pre ++ [[]])) := by
  have hne (x : List Char) : pre ++ [x] ≠ [] := List.append_ne_nil_of_right_ne_nil pre (List.cons_ne_nil x [])
  have hcolon : UrlPath.isDriveLetter [c, ':'] = true := by
    rw [UrlPath.isDriveLetter, hc]
    rfl
  obtain ⟨host, hhost⟩ := hparted.file hkind
  have hsegments := h.segments
  rw [rereadSegments, hkind, beq_self_eq_true] at hsegments
  cases host with
  | some x =>
    rw [lead_of_host hhost fun _ => Option.some_ne_none x, List.nil_append,
      UrlPath.tidy_walk_first (UrlPath.isDriveLetter_bar hc) (hne s)] at hsegments
    cases (List.cons.inj hsegments).1
  | none =>
    rw [lead_of_empty_host hkind hhost, List.singleton_append,
      UrlPath.tidy_walk_root (UrlPath.isDriveLetter_bar hc) (hne s)] at hsegments
    have hwhole : UrlPath.tidy false (UrlPath.walk false [] (pre ++ [s])) = pre ++ [s] := (List.cons.inj hsegments).2
    have hrest : UrlPath.walk false [] (pre ++ [[]]) = pre ++ [[]] := UrlPath.walk_directory hwhole
    refine ⟨?_, fun _ _ => hhost⟩
    rw [rereadSegments, hkind, beq_self_eq_true, lead_of_empty_host hkind hhost, List.singleton_append,
      UrlPath.tidy_walk_root hcolon (hne []), hrest]

theorem exists_segments (hbase : u.canBeBase = true) : ∃ ss, u.path = .segments ss := by
  unfold canBeBase at hbase
  split at hbase
  · cases hbase
  · exact ⟨_, ‹_›⟩

/-- A directory has the segments of the path but the last one; a bar in a drive letter becomes a colon. -/
theorem directory_cases (hbase : u.canBeBase = true) :
    (u.path = .segments [] ∧ u.directory = u.atSegments [[]]) ∨
    (∃ pre s, u.path = .segments (pre ++ [s]) ∧ (u.kind = .file → ¬UrlPath.Barred pre) ∧
      u.directory = u.atSegments (pre ++ [[]])) ∨
    ∃ c pre s, u.kind = .file ∧ c.isAlpha = true ∧ u.path = .segments ([c, '|'] :: (pre ++ [s])) ∧
      u.directory = u.atSegments ([c, ':'] :: (pre ++ [[]])) := by
  have hdirectory {ss dirs : List (List Char)} (hpath : u.path = .segments ss)
      (hdirs : (UrlPath.segments ss).directory (u.kind == .file) = .segments dirs) :
      u.directory = u.atSegments dirs := by
    rw [directory, hpath, ← kind, hdirs]
    rfl
  obtain ⟨ss, hpath⟩ := exists_segments hbase
  rcases List.eq_nil_or_concat ss with rfl | ⟨pre, s, rfl⟩
  · exact .inl ⟨hpath, hdirectory hpath rfl⟩
  · rw [List.concat_eq_append] at hpath
    by_cases hbarred : u.kind = .file ∧ UrlPath.Barred pre
    · obtain ⟨hkind, c, ds, rfl, hc⟩ := hbarred
      refine .inr (.inr ⟨c, ds, s, hkind, hc, hpath, hdirectory hpath ?_⟩)
      rw [hkind]
      exact UrlPath.directory_barred hc ds s
    · refine .inr (.inl ⟨pre, s, hpath, fun hkind h => hbarred ⟨hkind, h⟩, hdirectory hpath ?_⟩)
      exact UrlPath.directory_concat pre s fun hfile h => hbarred ⟨beq_iff_eq.1 hfile, h⟩

/-- The directory of a URL that reads back reads back. -/
theorem ReadsBack.directory (hback : u.ReadsBack) (hmade : u.Made) (hbase : u.canBeBase = true) :
    u.directory.ReadsBack := by
  have hparted := hmade.parted
  have hwritten := hmade.written
  have hne (pre : List (List Char)) (x : List Char) : pre ++ [x] ≠ [] :=
    List.append_ne_nil_of_right_ne_nil pre (List.cons_ne_nil x [])
  rcases directory_cases hbase with ⟨hpath, hdir⟩ | ⟨pre, s, hpath, -, hdir⟩ | ⟨c, pre, s, hkind, hc, hpath, hdir⟩ <;>
    rw [hdir] <;> have hauthority := hback.readsAuthority hparted hwritten hpath
  · obtain ⟨hkind, hsome⟩ := hparted.rooted hpath
    obtain ⟨a, ha⟩ := Option.ne_none_iff_exists'.1 hsome
    have hlead : u.lead = [] := lead_of_host ha fun h => by cases hkind.symm.trans h
    have hreads : u.ReadsPath [[]] := by
      refine ⟨?_, fun _ h => by cases h⟩
      rw [rereadSegments, hlead, hkind]
      rfl
    refine hreads.readsBack hparted hwritten hauthority (List.cons_ne_nil _ _) (by simp) ?_
    rw [pathGuard, pathGuard, atSegments, ha]
  · have hreads := (hback.readsPath hparted hwritten hpath (hne pre s)).directory
    refine hreads.readsBack hparted hwritten hauthority (hne pre []) ?_ ?_
    · have hchars := List.forall_mem_append.1 (hparted.path _ hpath)
      exact List.forall_mem_append.2 ⟨hchars.1, by simp⟩
    · rw [pathGuard_directory u pre s, atSegments, pathGuard, pathGuard, hpath]
  · have hreads := hback.readsPath hparted hwritten hpath (List.cons_ne_nil _ _)
    refine (hreads.barred hc hparted hkind).readsBack hparted hwritten hauthority (List.cons_ne_nil _ _) ?_ ?_
    · obtain ⟨hfirst, hrest⟩ := List.forall_mem_cons.1 (hparted.path _ hpath)
      refine List.forall_mem_cons.2 ⟨UrlPath.segmentChar_normalizeDrive hfirst, ?_⟩
      exact List.forall_mem_append.2 ⟨(List.forall_mem_append.1 hrest).1, by simp⟩
    · obtain ⟨host, hhost⟩ := hparted.file hkind
      rw [pathGuard, pathGuard, atSegments, hhost]

end Url

/-! ### Public paths -/

/-- The text `dir` is the path `path` up to its last slash, or the root if there is nothing in that path. -/
def IsDirectoryOf (dir path : List Char) : Prop :=
  (path = [] ∧ dir = ['/']) ∨ ∃ front file, path = front ++ '/' :: file ∧ '/' ∉ file ∧ dir = front ++ ['/']

namespace UrlPath
variable {pre : List (List Char)} {s : List Char}

end UrlPath

theorem IsDirectoryOf.ends {dir path : List Char} (h : IsDirectoryOf dir path) : ∃ front, dir = front ++ ['/'] := by
  rcases h with ⟨-, rfl⟩ | ⟨front, _, -, -, rfl⟩
  · exact ⟨[], rfl⟩
  · exact ⟨front, rfl⟩

/-- The parser leaves the bar in the path of an entry. -/
example : publicPathOf "file:///C|/a/b" = "file:///C:/a/" := by decide +kernel

end Federation
