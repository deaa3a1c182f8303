import Mathlib
import SqlCatalog.Files.FileSystem
/-!
The path of a name in a directory: where it leads (`FileSystem.resolve_join`), and the stem and the
extension of the name.
-/
namespace SqlCatalog

namespace Path

-- A name that stands for itself wherever it is the last piece of a path.
structure Named (name : String) : Prop where
  nonempty : name ≠ ""
  notHere : name ≠ "."
  notAbove : name ≠ ".."
  noSlash : '/' ∉ name.toList

theorem is_absolute_iff (path : Path) :
    path.isAbsolute = true ↔ path.text.toList.head? = some '/' := by
  rw [isAbsolute, String.startsWith_string_iff]
  cases path.text.toList with
  | nil => simp
  | cons c cs => simp [eq_comm]

theorem relative_of_no_slash {name : String} (noSlash : '/' ∉ name.toList) :
    Path.isAbsolute ⟨name⟩ = false := by
  rw [Bool.eq_false_iff, Ne, is_absolute_iff]
  intro first
  exact noSlash (List.mem_of_mem_head? first)

theorem pieces_slash (before after : String) :
    pieces ⟨before ++ "/" ++ after⟩ = pieces ⟨before⟩ ++ pieces ⟨after⟩ := by
  have characters : (before ++ "/" ++ after).toList = before.toList ++ '/' :: after.toList := by
    simp
  rw [pieces, characters, List.splitOn_append_cons_self, List.map_append]
  rfl

theorem pieces_no_slash {name : String} (noSlash : '/' ∉ name.toList) : pieces ⟨name⟩ = [name] := by
  rw [pieces, List.splitOn_eq_singleton noSlash, List.map_singleton, String.ofList_toList]

-- One slash stands between the directory and the name.
theorem join_text {dir : Path} (nonempty : dir.text ≠ "") {name : String}
    (noSlash : '/' ∉ name.toList) :
    ∃ base, dir.join ⟨name⟩ = ⟨base ++ "/" ++ name⟩ ∧
      (dir.text = base ∧ base ≠ "" ∨ dir.text = base ++ "/") := by
  have filled : dir.text.isEmpty = false := by simpa using nonempty
  unfold join
  rw [relative_of_no_slash noSlash, filled]
  by_cases slash : dir.text.endsWith "/"
  · have ends : "/".toList <:+ dir.text.toList := by
      simpa using String.Slice.endsWith_string_iff.mp slash
    obtain ⟨before, whole⟩ := ends
    have split : dir.text = String.ofList before ++ "/" := by
      rw [← String.toList_inj, String.toList_append, String.toList_ofList, whole]
    exact ⟨String.ofList before, by rw [slash, ← split]; rfl, .inr split⟩
  · rw [Bool.not_eq_true] at slash
    exact ⟨dir.text, by rw [slash]; rfl, .inl ⟨rfl, nonempty⟩⟩

theorem join_pieces {dir : Path} (nonempty : dir.text ≠ "") {name : String}
    (noSlash : '/' ∉ name.toList) :
    ∃ above, (dir.join ⟨name⟩).pieces = above ++ [name] ∧
      (dir.pieces = above ∨ dir.pieces = above ++ [""]) := by
  obtain ⟨base, joined, same⟩ := join_text nonempty noSlash
  refine ⟨pieces ⟨base⟩, by rw [joined, pieces_slash, pieces_no_slash noSlash], ?_⟩
  rcases same with ⟨same, -⟩ | same
  · exact .inl (by rw [← same])
  · refine .inr ?_
    have split := pieces_slash base ""
    rw [String.append_empty, ← same] at split
    exact split

theorem join_absolute {dir : Path} (nonempty : dir.text ≠ "") {name : String}
    (noSlash : '/' ∉ name.toList) : (dir.join ⟨name⟩).isAbsolute = dir.isAbsolute := by
  obtain ⟨base, joined, same⟩ := join_text nonempty noSlash
  rw [Bool.eq_iff_iff, is_absolute_iff, is_absolute_iff, joined]
  rcases same with ⟨same, filled⟩ | same
  · obtain ⟨c, cs, first⟩ := List.exists_cons_of_ne_nil fun none =>
      filled (String.toList_eq_nil_iff.mp none)
    simp [same, first]
  · cases base.toList with
    | nil => simp [same]
    | cons c cs => simp [same]

theorem join_characters {dir : Path} (nonempty : dir.text ≠ "") {name : String}
    (noSlash : '/' ∉ name.toList) {c : Char} (member : c ∈ (dir.join ⟨name⟩).text.toList) :
    c = '/' ∨ c ∈ dir.text.toList ∨ c ∈ name.toList := by
  obtain ⟨base, joined, same⟩ := join_text nonempty noSlash
  rw [joined, String.toList_append, String.toList_append, List.mem_append, List.mem_append] at member
  rcases member with (front | slash) | behind
  · have inside : c ∈ dir.text.toList := by
      rcases same with ⟨same, -⟩ | same
      · exact same ▸ front
      · rw [same, String.toList_append]
        exact List.mem_append_left _ front
    exact .inr (.inl inside)
  · exact .inl (List.mem_singleton.mp slash)
  · exact .inr (.inr behind)

theorem file_name_join {dir : Path} (nonempty : dir.text ≠ "") {name : String} (named : Named name) :
    (dir.join ⟨name⟩).fileName? = some name := by
  obtain ⟨above, pieces, -⟩ := join_pieces nonempty named.noSlash
  have naming : names above.length name = true := by
    simp [names, named.nonempty, named.notHere]
  have last : (dir.join ⟨name⟩).namingPlaces.getLast? = some above.length := by
    rw [namingPlaces, pieces, List.zipIdx_append, List.filterMap_append]
    simp [naming]
  simp [fileName?, last, pieces, named.notHere, named.notAbove]

/-! ### Stems and extensions -/

theorem cut_dotted (stem : List Char) {extension : List Char} (noDot : '.' ∉ extension) :
    cutName (String.ofList (stem ++ '.' :: extension)) =
      if stem.isEmpty then (String.ofList ('.' :: extension), none)
      else (String.ofList stem, some (String.ofList extension)) := by
  have behind : ((stem ++ '.' :: extension).reverse.takeWhile (· != '.')).reverse = extension := by
    rw [List.reverse_append, List.reverse_cons, List.append_assoc, List.takeWhile_append_of_pos]
    · simp
    · intro c member
      have differs : c ≠ '.' := by
        rintro rfl
        exact noDot (List.mem_reverse.mp member)
      simpa using differs
  have length : (stem ++ '.' :: extension).length - extension.length - 1 = stem.length := by
    simp only [List.length_append, List.length_cons]
    omega
  have shorter : extension.length ≠ (stem ++ '.' :: extension).length := by
    simp only [List.length_append, List.length_cons]
    omega
  simp only [cutName, String.toList_ofList, behind, length, List.take_left, shorter, false_or]
  by_cases empty : stem.isEmpty
  · rw [if_pos empty, if_pos empty, List.isEmpty_iff.mp empty, List.nil_append]
  · rw [if_neg empty, if_neg empty]

theorem cut_undotted {name : String} (noDot : '.' ∉ name.toList) : cutName name = (name, none) := by
  have behind : name.toList.reverse.takeWhile (· != '.') = name.toList.reverse := by
    rw [List.takeWhile_eq_self_iff]
    intro c member
    have differs : c ≠ '.' := by
      rintro rfl
      exact noDot (List.mem_reverse.mp member)
    simpa using differs
  simp [cutName, behind]

theorem cut_stem {stem extension : String} (nonempty : stem ≠ "") (noDot : '.' ∉ extension.toList) :
    cutName (stem ++ "." ++ extension) = (stem, some extension) := by
  have characters : stem ++ "." ++ extension =
      String.ofList (stem.toList ++ '.' :: extension.toList) := by
    rw [← String.toList_inj]
    simp
  rw [characters, cut_dotted stem.toList noDot, if_neg (by simpa using nonempty)]
  simp only [String.ofList_toList]

theorem last_dot {name : String} (dotted : '.' ∈ name.toList) :
    ∃ front behind, name = String.ofList (front ++ '.' :: behind) ∧ '.' ∉ behind := by
  obtain ⟨behind, front, split, undotted⟩ :=
    List.eq_append_cons_of_mem (List.mem_reverse.mpr dotted)
  have reversed := congrArg List.reverse split
  rw [List.reverse_reverse] at reversed
  refine ⟨front.reverse, behind.reverse, ?_, List.mem_reverse.not.mpr undotted⟩
  rw [← String.toList_inj, reversed]
  simp

theorem extension_iff {name extension : String} (noDot : '.' ∉ extension.toList) :
    extension? name = some extension ↔ ∃ stem, stem ≠ "" ∧ name = stem ++ "." ++ extension := by
  constructor
  · intro has
    by_cases dot : '.' ∈ name.toList
    · obtain ⟨front, behind, rfl, undotted⟩ := last_dot dot
      rw [extension?, cut_dotted front undotted] at has
      split at has
      · cases has
      · rename_i nonempty
        cases has
        refine ⟨String.ofList front, by simpa using nonempty, ?_⟩
        rw [← String.toList_inj]
        simp
    · rw [extension?, cut_undotted dot] at has
      cases has
  · rintro ⟨stem, nonempty, rfl⟩
    rw [extension?, cut_stem nonempty noDot]

theorem stem_join {dir : Path} (nonempty : dir.text ≠ "") {stem extension : String}
    (named : Named (stem ++ "." ++ extension)) (some : stem ≠ "")
    (noDot : '.' ∉ extension.toList) :
    (dir.join ⟨stem ++ "." ++ extension⟩).stem? = .some stem := by
  rw [stem?, file_name_join nonempty named, Option.map_some, cut_stem some noDot]

end Path

namespace FileSystem

theorem resolve_ok {files : FileSystem} {path : Path} {location : Location}
    (leads : files.resolve path = .ok location) :
    '\x00' ∉ path.text.toList ∧ path.text ≠ "" ∧
      path.pieces.foldlM files.step (if path.isAbsolute then [] else files.workingDirectory) =
        .ok location := by
  unfold resolve at leads
  split at leads
  · cases leads
  · rename_i noNul
    split at leads
    · cases leads
    · rename_i some
      exact ⟨by simpa using noNul, by simpa using some, leads⟩

theorem resolve_of_walk {files : FileSystem} {path : Path} {location : Location}
    (clean : '\x00' ∉ path.text.toList) (nonempty : path.text ≠ "")
    (walked : path.pieces.foldlM files.step (if path.isAbsolute then [] else files.workingDirectory) =
      .ok location) :
    files.resolve path = .ok location := by
  rw [resolve, if_neg (by simpa using clean), if_neg (by simpa using nonempty), walked]

theorem step_empty {files : FileSystem} {location next : Location}
    (stepped : files.step location "" = .ok next) : next = location := by
  unfold step at stepped
  split at stepped
  · cases stepped
    rfl
  · cases stepped
  · cases stepped

theorem step_named {files : FileSystem} {location : Location} {name : String}
    (directory : files.node? location = some .directory) (named : Path.Named name)
    (there : (files.node? (location ++ [name])).isSome) :
    files.step location name = .ok (location ++ [name]) := by
  have filled : name.isEmpty = false := by simpa using named.nonempty
  simp only [step, directory, filled, named.notHere, named.notAbove, there, Bool.false_eq_true,
    or_self, if_false, if_true]

-- A slash at the end of a path takes one more step, which leads nowhere else.
theorem walk_slash {files : FileSystem} {start location : Location} {above : List String}
    (walked : (above ++ [""]).foldlM files.step start = .ok location) :
    above.foldlM files.step start = .ok location := by
  rw [List.foldlM_append] at walked
  cases first : above.foldlM files.step start with
  | error problem =>
    rw [first] at walked
    cases walked
  | ok between =>
    rw [first] at walked
    have stepped : files.step between "" = .ok location := by
      rw [← bind_pure (files.step between "")]
      exact walked
    rw [step_empty stepped]

theorem resolve_join {files : FileSystem} {dir : Path} {location : Location} {name : String}
    (leads : files.resolve dir = .ok location)
    (directory : files.node? location = some .directory) (named : Path.Named name)
    (clean : '\x00' ∉ name.toList) (there : (files.node? (location ++ [name])).isSome) :
    files.resolve (dir.join ⟨name⟩) = .ok (location ++ [name]) := by
  obtain ⟨cleanAbove, nonempty, walked⟩ := resolve_ok leads
  obtain ⟨above, pieces, same⟩ := Path.join_pieces nonempty named.noSlash
  have walkedAbove : above.foldlM files.step
      (if dir.isAbsolute then [] else files.workingDirectory) = .ok location := by
    rcases same with same | same
    · rw [← same, walked]
    · rw [same] at walked
      exact walk_slash walked
  refine resolve_of_walk ?_ ?_ ?_
  · intro member
    rcases Path.join_characters nonempty named.noSlash member with slash | inside | inside
    · cases slash
    · exact cleanAbove inside
    · exact clean inside
  · obtain ⟨base, joined, -⟩ := Path.join_text nonempty named.noSlash
    rw [joined]
    simp [named.nonempty]
  · rw [pieces, Path.join_absolute nonempty named.noSlash, List.foldlM_append, walkedAbove]
    change files.step location name >>= pure = _
    rw [bind_pure, step_named directory named there]

end FileSystem
end SqlCatalog
