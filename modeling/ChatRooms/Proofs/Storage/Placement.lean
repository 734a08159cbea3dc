import Mathlib.Data.List.TakeWhile
import ChatRooms.Startup
import ChatRooms.Proofs.Storage.DatabaseUrl

/-!
Where the data base lies after a start. A start that succeeds has opened one data base, under the
path that the URL gives back. That is the file in the data directory exactly if the directory is
plain; then other directories have other data bases. A path from the top can come back as one from
the working directory, which then decides where the data base lies.
-/

namespace ChatRooms

open ChatRooms.Text ChatRooms.Storage

/-! ### The path of the data base -/

namespace Settings

variable (s : Settings)

/-- The path of the data base is the data directory, a slash unless the directory ends with one,
and the name of the file. -/
theorem databasePath_cases :
    s.dataDir.toList = [] ∧ s.databasePath.toList = "chat.sqlite".toList ∨
    ∃ dir, s.databasePath.toList = dir ++ '/' :: "chat.sqlite".toList ∧
      (s.dataDir.toList = dir ++ ['/'] ∨
        s.dataDir.toList = dir ∧ dir ≠ [] ∧ dir.getLast? ≠ some '/') := by
  unfold databasePath joinPath
  split
  · rename_i hempty
    exact .inl ⟨by simpa using hempty, rfl⟩
  rename_i hempty
  right
  split
  · rename_i hlast
    obtain ⟨dir, hdir⟩ := List.getLast?_eq_some_iff.mp hlast
    exact ⟨dir, by simp [hdir], .inl hdir⟩
  · rename_i hlast
    refine ⟨s.dataDir.toList, by simp, .inr ⟨rfl, by simpa using hempty, hlast⟩⟩

theorem question_mem_databasePath (h : '?' ∈ s.dataDir.toList) :
    ∃ dir, '?' ∈ dir ∧ s.databasePath.toList = dir ++ '/' :: "chat.sqlite".toList := by
  rcases s.databasePath_cases with ⟨hempty, -⟩ | ⟨dir, hpath, hdir | ⟨hdir, -⟩⟩
  · rw [hempty] at h
    cases h
  · exact ⟨dir, by simpa [hdir] using h, hpath⟩
  · exact ⟨dir, hdir ▸ h, hpath⟩

theorem question_not_mem_databasePath (h : '?' ∉ s.dataDir.toList) :
    '?' ∉ s.databasePath.toList := by
  rcases s.databasePath_cases with ⟨-, hpath⟩ | ⟨dir, hpath, hdir | ⟨hdir, -⟩⟩
  · rw [hpath]
    decide
  · rw [hdir] at h
    rw [hpath]
    simpa using h
  · rw [hdir] at h
    rw [hpath]
    simpa using h

/-- A slash stands between the directory and the file if the directory ends with something else. -/
theorem toList_databasePath : s.databasePath.toList = s.dataDir.toList ++
    (if s.dataDir.toList.getLast?.all (· == '/') then [] else ['/']) ++ "chat.sqlite".toList := by
  rcases s.databasePath_cases with ⟨hempty, hpath⟩ | ⟨dir, hpath, hdir | ⟨hdir, hne, hlast⟩⟩
  · rw [hempty, hpath]
    rfl
  · rw [hdir, hpath]
    simp
  · have hslash : dir.getLast?.all (· == '/') = false := by
      rw [List.getLast?_eq_some_getLast hne] at hlast ⊢
      simpa using hlast
    rw [hdir, hpath, hslash]
    simp

/-- What stands in front of a directory, and is empty or ends with a slash, stands in front of its
data base. -/
theorem databasePath_append {front : List Char} {dir : String}
    (hfront : front.getLast?.all (· == '/') = true) (h : s.dataDir.toList = front ++ dir.toList) :
    s.databasePath.toList = front ++ (withDataDir dir).databasePath.toList := by
  have hlast : (front ++ dir.toList).getLast?.all (· == '/') =
      dir.toList.getLast?.all (· == '/') := by
    rcases dir.toList.eq_nil_or_concat with hdir | ⟨short, c, hdir⟩
    · rw [hdir, List.append_nil, hfront]
      rfl
    · rw [hdir, List.concat_eq_append, ← List.append_assoc]
      simp
  have hdir : (withDataDir dir).dataDir = dir := rfl
  rw [toList_databasePath, toList_databasePath, h, hlast, hdir]
  simp only [List.append_assoc]

end Settings

namespace Storage

/-! ### Places -/

theorem pathParts_append_slash (xs ys : List Char) :
    pathParts (xs ++ '/' :: ys) = pathParts xs ++ pathParts ys := by
  have hslash : ('/' :: ys).splitBy (fun a b => a != '/' && b != '/') =
      ['/'] :: ys.splitBy fun a b => a != '/' && b != '/' := by
    cases ys with
    | nil => rfl
    | cons y ys => exact List.splitBy_append_cons (l := ['/']) ys (by simp)
  unfold pathParts
  rw [List.splitBy_append_cons ys (by simp), hslash, List.filter_append, List.map_append]
  simp

/-- The name of the file comes behind the parts of the directory, and both are read from the same
place. -/
theorem pathParts_databasePath (s : Settings) :
    pathParts s.databasePath.toList = pathParts s.dataDir.toList ++ ["chat.sqlite"] ∧
      isAbsolute s.databasePath.toList = isAbsolute s.dataDir.toList := by
  have hfile : pathParts "chat.sqlite".toList = ["chat.sqlite"] := by decide
  have hnil : pathParts [] = [] := rfl
  rcases s.databasePath_cases with ⟨hempty, hpath⟩ | ⟨dir, hpath, hdir | ⟨hdir, hne, -⟩⟩
  · rw [hempty, hpath]
    decide
  · rw [hpath, hdir, pathParts_append_slash, pathParts_append_slash, hfile, hnil, List.append_nil]
    refine ⟨rfl, ?_⟩
    cases dir <;> rfl
  · rw [hpath, hdir, pathParts_append_slash, hfile]
    refine ⟨rfl, ?_⟩
    cases dir with
    | nil => exact absurd rfl hne
    | cons c dir => rfl

/-- The file stands below the place of the directory. -/
theorem Place.ofPath_databasePath (cwd : Place) (s : Settings) :
    Place.ofPath cwd s.databasePath = Place.ofPath cwd s.dataDir ++ ["chat.sqlite"] := by
  obtain ⟨hparts, habsolute⟩ := pathParts_databasePath s
  unfold Place.ofPath Place.start
  rw [hparts, habsolute, List.foldl_append]
  rfl

/-- Slashes in front of a path lead to the top. -/
theorem Place.ofPath_slashes (cwd : Place) {k : Nat} (hk : 0 < k) {path dir : String}
    (h : path.toList = (List.replicate k "//".toList).flatten ++ dir.toList) :
    Place.ofPath cwd path = Place.ofPath [] dir := by
  have hparts : ∀ k, pathParts ((List.replicate k "//".toList).flatten ++ dir.toList) =
      pathParts dir.toList := by
    intro k
    induction k with
    | zero => rfl
    | succ k ih =>
      have hslash : pathParts ['/'] = [] := rfl
      have hpair : ∀ cs, pathParts ("//".toList ++ cs) = pathParts cs := by
        intro cs
        have hcut := pathParts_append_slash ['/'] cs
        rwa [hslash, List.nil_append] at hcut
      rw [List.replicate_succ, List.flatten_cons, List.append_assoc, hpair, ih]
  have habsolute : isAbsolute path.toList = true := by
    obtain ⟨k, rfl⟩ : ∃ n, k = n + 1 := ⟨k - 1, by omega⟩
    rw [h, List.replicate_succ, List.flatten_cons, List.append_assoc]
    rfl
  have hstart : Place.start [] dir.toList = [] := ite_self _
  rw [Place.ofPath, Place.ofPath, Place.start, habsolute, h, hparts, hstart]
  rfl

/-! ### Plain directories -/

/-- A slash behind it lets no text begin with more. -/
theorem prefix_append_cons_iff {p dir rest : List Char} {c : Char} (hc : c ∉ p) :
    p <+: dir ++ c :: rest ↔ p <+: dir := by
  refine ⟨?_, fun h => h.trans (List.prefix_append _ _)⟩
  rintro ⟨t, h⟩
  rcases List.append_eq_append_iff.mp h with ⟨a, rfl, -⟩ | ⟨a, rfl, ha⟩
  · exact List.prefix_append _ _
  · cases a with
    | nil => simp
    | cons x a =>
      obtain ⟨rfl, -⟩ := List.cons_eq_cons.mp ha
      simp at hc

section Beginnings

variable (s : Settings)

theorem scheme_prefix_databasePath_iff :
    "sqlite:".toList <+: s.databasePath.toList ↔ "sqlite:".toList <+: s.dataDir.toList := by
  rcases s.databasePath_cases with ⟨hempty, hpath⟩ | ⟨dir, hpath, hdir | ⟨hdir, -⟩⟩
  · rw [hempty, hpath]
    decide
  · rw [hpath, hdir, prefix_append_cons_iff (by decide), prefix_append_cons_iff (by decide)]
  · rw [hpath, hdir, prefix_append_cons_iff (by decide)]

theorem slashes_prefix_databasePath_iff :
    "//".toList <+: s.databasePath.toList ↔ "//".toList <+: s.dataDir.toList := by
  rcases s.databasePath_cases with ⟨hempty, hpath⟩ | ⟨dir, hpath, hdir | ⟨hdir, hne, hlast⟩⟩
  · rw [hempty, hpath]
    decide
  · rw [hpath, hdir]
    match dir with
    | [] => decide
    | [x] => simp
    | x :: y :: dir => simp
  · rw [hpath, hdir]
    match dir with
    | [x] => simpa [eq_comm] using hlast
    | x :: y :: dir => simp

theorem hasEscape_databasePath_iff :
    Percent.HasEscape (Utf8.encode s.databasePath.toList) ↔
      Percent.HasEscape (Utf8.encode s.dataDir.toList) := by
  have hcut : ∀ dir rest : List Char, '%' ∉ rest →
      (Percent.HasEscape (Utf8.encode (dir ++ '/' :: rest)) ↔
        Percent.HasEscape (Utf8.encode dir)) := by
    intro dir rest hpercent
    have hrest : ¬Percent.HasEscape (Utf8.encode rest) :=
      Percent.not_hasEscape_of_not_mem fun h => hpercent ((Utf8.mem_encode_iff (by decide)).mp h)
    have hbytes : Utf8.encode (dir ++ '/' :: rest) =
        Utf8.encode dir ++ 0x2F :: Utf8.encode rest := Utf8.encode_append dir ('/' :: rest)
    rw [hbytes, Percent.hasEscape_append_cons (by decide) (by decide), or_iff_left hrest]
  rcases s.databasePath_cases with ⟨hempty, hpath⟩ | ⟨dir, hpath, hdir | ⟨hdir, -⟩⟩
  · rw [hempty, hpath]
    exact iff_of_false (Percent.not_hasEscape_of_not_mem (by decide)) Percent.not_hasEscape_nil
  · rw [hpath, hdir, hcut dir _ (by decide), hcut dir _ (by simp)]
  · rw [hpath, hdir, hcut dir _ (by decide)]

/-- The path of the data base is plain if the data directory is. -/
theorem isPlain_databasePath_iff : IsPlain s.databasePath ↔ IsPlain s.dataDir := by
  constructor
  · rintro ⟨h₁, h₂, h₃⟩
    exact ⟨mt (scheme_prefix_databasePath_iff s).mpr h₁,
      mt (slashes_prefix_databasePath_iff s).mpr h₂, mt (hasEscape_databasePath_iff s).mpr h₃⟩
  · rintro ⟨h₁, h₂, h₃⟩
    exact ⟨mt (scheme_prefix_databasePath_iff s).mp h₁,
      mt (slashes_prefix_databasePath_iff s).mp h₂, mt (hasEscape_databasePath_iff s).mp h₃⟩

end Beginnings

/-! ### Opening -/

namespace Disk

/-- A data base that has been opened stands at its place. -/
theorem item?_openDatabase {d d' : Disk} {place : Place} {database : Database}
    (h : d.openDatabase place = some (.database database, d')) :
    d'.item? place = some (.database database) := by
  unfold openDatabase at h
  split at h
  · cases h
  split at h
  · rename_i hitem
    cases h
    exact hitem
  · cases h
  · cases h
  · rename_i hitem
    split at h
    · cases h
      unfold item? at hitem ⊢
      split at hitem
      · cases hitem
      · rename_i hempty
        rw [if_neg hempty, Table.get?_insert_self]
    · cases h

end Disk

end Storage

namespace Startup

/-- What a start that succeeds has done. -/
theorem initialise_ok {s : Settings} {cwd : Place} {disk disk' : Disk} {st : Started}
    (h : initialise s cwd disk = (.ok st, disk')) : ∃ path database,
      options s = .ok ⟨path, none⟩ ∧ st.place = Place.ofPath cwd path ∧
        disk'.item? st.place = some (.database database) ∧ st.accounts.users = database.users ∧
        st.accounts.sessions = database.sessions ∧ st.rooms.rows = database.rooms := by
  unfold initialise at h
  split at h
  · cases h
  split at h
  · cases h
  rename_i o hoptions
  split at h
  · cases h
  rename_i hsystem
  obtain ⟨path, fileSystem⟩ := o
  obtain rfl : fileSystem = none := by simpa using hsystem
  dsimp only at h
  split at h
  · cases h
  · cases h
  · rename_i database disk'' hopen
    split at h
    · cases h
    · cases h
      exact ⟨path, database, hoptions, rfl, Disk.item?_openDatabase hopen, rfl, rfl, rfl⟩

/-- What the settings open, if nobody asks for a driver. -/
theorem options_ok {s : Settings} {path : String} (h : options s = .ok ⟨path, none⟩) :
    '?' ∉ s.dataDir.toList ∧
      (∃ bare rest, Strips "sqlite:".toList s.databasePath.toList bare ∧
        Strips "//".toList bare rest ∧
        Utf8.encode path.toList = Percent.decode (Utf8.encode rest)) ∧
      (path = s.databasePath ↔ IsPlain s.dataDir) := by
  obtain ⟨hslash, bare, rest, hbare, hrest, hpath⟩ := ofUrl_databaseUrl h
  have hdir : '?' ∉ s.dataDir.toList := by
    intro hmem
    obtain ⟨dir, hdir, htext⟩ := s.question_mem_databasePath hmem
    obtain ⟨before, after, rfl⟩ := List.append_of_mem hdir
    refine hslash before (after ++ '/' :: "chat.sqlite".toList) ?_ (by simp)
    rw [htext, List.append_assoc, List.cons_append]
  have hwhole : rest.takeWhile (· ≠ '?') = rest := by
    refine List.takeWhile_eq_self_iff.mpr fun c hc => decide_eq_true ?_
    rintro rfl
    exact s.question_not_mem_databasePath hdir ((hrest.suffix.trans hbare.suffix).mem hc)
  rw [hwhole] at hpath
  refine ⟨hdir, ⟨bare, rest, hbare, hrest, hpath⟩, ?_⟩
  rw [opened_eq_iff_isPlain hbare hrest hpath, isPlain_databasePath_iff]

/-- Pairs of slashes in front of the data directory are dropped. -/
theorem options_slashes {s : Settings} {path : String} (h : options s = .ok ⟨path, none⟩) {k : Nat}
    (hk : 0 < k) {dir : String}
    (hdir : s.dataDir.toList = (List.replicate k "//".toList).flatten ++ dir.toList)
    (hdone : ¬"//".toList <+: dir.toList)
    (hescape : ¬Percent.HasEscape (Utf8.encode dir.toList)) :
    path = (Settings.withDataDir dir).databasePath := by
  obtain ⟨-, ⟨bare, rest, hbare, hrest, hpath⟩, -⟩ := options_ok h
  have hlast : (List.replicate k "//".toList).flatten.getLast?.all (· == '/') = true := by
    obtain ⟨k, rfl⟩ : ∃ n, k = n + 1 := ⟨k - 1, by omega⟩
    rw [List.replicate_succ', List.flatten_concat]
    simp
  have hwhole := s.databasePath_append hlast hdir
  -- the path begins with a slash, so that no scheme is dropped before the slashes
  have hscheme : ¬"sqlite:".toList <+: s.databasePath.toList := by
    obtain ⟨k, rfl⟩ : ∃ n, k = n + 1 := ⟨k - 1, by omega⟩
    rw [hwhole, List.replicate_succ, List.flatten_cons, List.append_assoc]
    simp
  have hkept : rest = (Settings.withDataDir dir).databasePath.toList := by
    rw [hbare.eq_of_not_prefix hscheme, hwhole] at hrest
    exact hrest.of_copies.eq_of_not_prefix
      (mt (slashes_prefix_databasePath_iff (.withDataDir dir)).mp hdone)
  have hbytes := (Percent.decodes_decode (Utf8.encode rest)).eq_of_not_hasEscape (by
    rw [hkept, hasEscape_databasePath_iff]
    exact hescape)
  rw [hbytes, hkept] at hpath
  exact String.toList_inj.mp (Utf8.encode_injective hpath)

variable {s : Settings} {cwd : Place} {disk disk' : Disk} {st : Started}

theorem place_of_isPlain (h : initialise s cwd disk = (.ok st, disk'))
    (hplain : IsPlain s.dataDir) : st.place = Place.ofPath cwd s.dataDir ++ ["chat.sqlite"] := by
  obtain ⟨path, database, hoptions, hst, -⟩ := initialise_ok h
  obtain ⟨-, -, hpath⟩ := options_ok hoptions
  rw [hst, hpath.mpr hplain, Place.ofPath_databasePath]

/-- **The data base lies where the URL says.** A start that succeeds opens one path, which is that
of the settings exactly if the data directory is plain. Slashes in front of the directory are
dropped in pairs: a path from the top becomes one from the working directory if their number is
even. -/
theorem initialise_place (h : initialise s cwd disk = (.ok st, disk')) :
    ∃ path, options s = .ok ⟨path, none⟩ ∧ st.place = Place.ofPath cwd path ∧
      -- a data base stands there, and it is the one of the server
      (∃ database, disk'.item? st.place = some (.database database) ∧
        st.accounts.users = database.users ∧ st.accounts.sessions = database.sessions ∧
        st.rooms.rows = database.rooms) ∧
      -- a question mark stops the start; schemes, slashes and escapes lead elsewhere
      '?' ∉ s.dataDir.toList ∧
      (∃ bare rest, Strips "sqlite:".toList s.databasePath.toList bare ∧
        Strips "//".toList bare rest ∧
        Utf8.encode path.toList = Percent.decode (Utf8.encode rest)) ∧
      (path = s.databasePath ↔ IsPlain s.dataDir) ∧
      (IsPlain s.dataDir → st.place = Place.ofPath cwd s.dataDir ++ ["chat.sqlite"]) ∧
      (∀ {k dir}, 0 < k →
        s.dataDir.toList = (List.replicate k "//".toList).flatten ++ dir.toList →
        ¬"//".toList <+: dir.toList → ¬Percent.HasEscape (Utf8.encode dir.toList) →
        st.place = Place.ofPath cwd dir ++ ["chat.sqlite"] ∧
          Place.ofPath cwd s.dataDir = Place.ofPath [] dir) ∧
      -- other plain directories have other data bases, wherever the server is started
      ∀ {s₂ : Settings} {cwd₂ : Place} {disk₂ disk₂' : Disk} {st₂ : Started},
        initialise s₂ cwd₂ disk₂ = (.ok st₂, disk₂') → IsPlain s.dataDir → IsPlain s₂.dataDir →
        (st.place = st₂.place ↔
          Place.ofPath cwd s.dataDir = Place.ofPath cwd₂ s₂.dataDir) := by
  obtain ⟨path, database, hoptions, hst, hitem, hrows⟩ := initialise_ok h
  obtain ⟨hquestion, hrest, hpath⟩ := options_ok hoptions
  refine ⟨path, hoptions, hst, ⟨database, hitem, hrows⟩, hquestion, hrest, hpath,
    place_of_isPlain h, fun {k dir} hk hdir hdone hescape => ?_, fun h₂ hplain hplain₂ => ?_⟩
  · refine ⟨?_, Place.ofPath_slashes cwd hk hdir⟩
    rw [hst, options_slashes hoptions hk hdir hdone hescape, Place.ofPath_databasePath]
    rfl
  · rw [place_of_isPlain h hplain, place_of_isPlain h₂ hplain₂, List.append_left_inj]

/-- A server with a new data base and the settings that nobody has changed. -/
def freshStart (place : Place) : Started :=
  ⟨Accounts.empty Settings.default.sessionNanos hashCost, ⟨[], true⟩, place⟩

/-- A working directory, and nothing else. -/
def emptyDisk : Disk := [(["srv"], .directory)]

/-- A start in a plain directory on an empty disk. -/
theorem initialise_place_plain :
    initialise (.withDataDir "data") ["srv"] emptyDisk =
      (.ok (freshStart ["srv", "data", "chat.sqlite"]),
        emptyDisk ++ [(["srv", "data"], .directory),
          (["srv", "data", "chat.sqlite"], .database .empty)]) ∧
    IsPlain "data" ∧ options (.withDataDir "data") = .ok ⟨"data/chat.sqlite", none⟩ := by
  have hstart : initialise (.withDataDir "data") ["srv"] emptyDisk =
      (.ok (freshStart ["srv", "data", "chat.sqlite"]),
        emptyDisk ++ [(["srv", "data"], .directory),
          (["srv", "data", "chat.sqlite"], .database .empty)]) := rfl
  have hplain : IsPlain (Settings.withDataDir "data").dataDir :=
    ⟨by decide, by decide, Percent.not_hasEscape_of_not_mem (by decide)⟩
  obtain ⟨path, hoptions, -, -, -, -, hpath, -⟩ := initialise_place hstart
  rw [hpath.mpr hplain] at hoptions
  exact ⟨hstart, hplain, hoptions⟩

/-- A directory with an escape in its name gets the data base of another one: nothing stands where
the settings put it. -/
theorem escape_leads_elsewhere :
    let s := Settings.withDataDir "x/%2e"
    let disk : Disk := emptyDisk ++ [(["srv", "x"], .directory), (["srv", "x", "%2e"], .directory),
      (["srv", "x", "chat.sqlite"], .database .empty)]
    initialise s ["srv"] emptyDisk = (.ok (freshStart ["srv", "x", "chat.sqlite"]), disk) ∧
      disk.item? (Place.ofPath ["srv"] s.databasePath) = none ∧
      Place.ofPath ["srv"] s.dataDir ≠ Place.ofPath ["srv"] "x" ∧
      initialise (.withDataDir "x") ["srv"] disk =
        (.ok (freshStart ["srv", "x", "chat.sqlite"]), disk) := by
  refine ⟨rfl, rfl, by decide, rfl⟩

/-- From the top, `data` is made, but the data base is looked for in the working directory. -/
example : initialise (.withDataDir "//data") ["srv"] emptyDisk =
    (.error (.database "//data/chat.sqlite"), emptyDisk ++ [(["data"], .directory)]) := rfl

end Startup

end ChatRooms
