import CodingExamples.Library.LexicalPath

/-!
# The file that a request names

A thread of the server cuts the target out of the first line of the request
and appends it to the web folder.  Nothing looks at the components of the
target, and nothing puts a slash between the folder and a target that does
not start with one.

The main theorem says exactly for which targets the path that is opened lies
below the web folder once `.` and `..` are resolved.
-/

namespace CodingExamples.PyHttpServer.Target

open CodingExamples.Library.LexicalPath

/-- A byte string. -/
abbrev Str := List (BitVec 8)

/-- The separators and the strings that the code compares with. -/
def slash : BitVec 8 := 47
def space : BitVec 8 := 32
def get : Str := [71, 69, 84, 32]
def indexHtml : Str :=
  [47, 105, 110, 100, 101, 120, 46, 104, 116, 109, 108]

/-- `request.split('\r\n')`. -/
def splitCrlf : Str → List Str
  | [] => [[]]
  | [byte] => [[byte]]
  | first :: second :: rest =>
      if first = 13 ∧ second = 10 then
        [] :: splitCrlf rest
      else
        (splitCrlf (second :: rest)).modifyHead (first :: ·)

/-- The requested path, empty if there is none. -/
def requestPath (request : Str) : Str :=
  let line := (splitCrlf request).headD []
  if get.isPrefixOf line then
    let words := line.splitOn space
    if words.length ≥ 2 then words.getD 1 [] else []
  else
    []

/-- The path after a request for `/` was redirected. -/
def target (path : Str) : Str :=
  if path = [slash] then indexHtml else path

/--
The file that the thread opens: `none` if no path was requested, or if `open`
raises an exception, because of a NUL or because there is no such file.
-/
def openedFile (files : Str → Option Str) (webFolder request : Str) :
    Option Str :=
  let path := requestPath request
  if path.length = 0 then
    none
  else
    let name := webFolder ++ target path
    if name.contains 0 ∨ files name = none then
      none
    else
      some name

/-! ## Lexical resolution -/

/-- What a component of a path means. -/
def segment (component : Str) : Segment Str :=
  if component = [] ∨ component = [46] then
    .stay
  else if component = [46, 46] then
    .up
  else
    .down component

def segments (path : Str) : List (Segment Str) :=
  (path.splitOn slash).map segment

/-- The components of an absolute path after resolution. -/
def resolve (path : Str) : List Str :=
  walk [] (segments path)

/-- The path lies inside the folder. -/
def Inside (webFolder path : Str) : Prop :=
  Below (resolve webFolder) (resolve path)

/-- An absolute path without a trailing slash. -/
structure WebFolder where
  path : Str
  absolute : path.head? = some slash
  untrailed : path.getLast? ≠ some slash

/-- The last component of the folder. -/
def WebFolder.base (folder : WebFolder) : Str :=
  (folder.path.splitOn slash).getLastD []

/-- The components of the directory that the folder is in. -/
def WebFolder.parent (folder : WebFolder) : List Str :=
  walk [] ((folder.path.splitOn slash).dropLast.map segment)

/-- The last component of the folder with the target appended, reduced. -/
def WebFolder.reduced (folder : WebFolder) (target : Str) : Reduced Str :=
  reduce (segments (folder.base ++ target))

/-- The directories above the folder that the target does not climb out of. -/
def WebFolder.level (folder : WebFolder) (target : Str) : Nat :=
  folder.parent.length - (folder.reduced target).climbs

/--
After its climbs the target descends through what is left of the folder's own
components, and reaches deeper than the folder.
-/
def Stays (folder : WebFolder) (target : Str) : Prop :=
  (resolve folder.path).drop (folder.level target) <+:
      (folder.reduced target).names ∧
    (resolve folder.path).length <
      folder.level target + (folder.reduced target).names.length

instance (folder : WebFolder) (target : Str) :
    Decidable (Stays folder target) :=
  inferInstanceAs (Decidable (_ ∧ _))

/-! ## The components of the opened path -/

/-- Appending to a path changes its last component alone. -/
theorem splitOn_append (before after : Str) :
    (before ++ after).splitOn slash =
      (before.splitOn slash).dropLast ++
        ((before.splitOn slash).getLastD [] ++ after).splitOn slash := by
  induction before with
  | nil => rfl
  | cons byte before ih =>
      rw [List.cons_append, List.splitOn_cons_eq_if_modifyHead,
        List.splitOn_cons_eq_if_modifyHead, ih]
      rcases List.exists_cons_of_ne_nil
        (List.splitOn_ne_nil slash before) with ⟨first, rest, components⟩
      rw [components]
      by_cases same : byte = slash
      · simp [same]
      · cases rest with
        | nil => simp [same, List.splitOn_cons_eq_if_modifyHead]
        | cons second rest => simp [same]

theorem resolve_append (folder : WebFolder) (target : Str) :
    resolve (folder.path ++ target) =
      walk folder.parent (segments (folder.base ++ target)) := by
  rw [resolve, segments, splitOn_append, List.map_append, walk_append]
  rfl

theorem resolve_folder (folder : WebFolder) :
    resolve folder.path =
      (segment folder.base).enter folder.parent := by
  have split :
      folder.path.splitOn slash =
        (folder.path.splitOn slash).dropLast ++ [folder.base] := by
    rw [WebFolder.base, List.getLastD_eq_getLast?,
      List.getLast?_eq_some_getLast (List.splitOn_ne_nil _ _),
      Option.getD_some, List.dropLast_append_getLast]
  rw [resolve, segments, split, List.map_append, walk_append]
  rfl

/-- The name that is opened is the folder with the target behind it. -/
theorem openedFile_eq
    {files : Str → Option Str} {webFolder request opened : Str}
    (opens : openedFile files webFolder request = some opened) :
    opened = webFolder ++ target (requestPath request) := by
  simp only [openedFile] at opens
  split at opens
  · cases opens
  · split at opens
    · cases opens
    · cases opens
      rfl

/--
A file that a thread opens lies inside the web folder exactly if the target
stays in it.
-/
theorem opened_inside_iff
    (folder : WebFolder) (files : Str → Option Str)
    (request opened : Str)
    (opens : openedFile files folder.path request = some opened) :
    Inside folder.path opened ↔
      Stays folder (target (requestPath request)) := by
  rw [openedFile_eq opens, Inside, resolve_append, resolve_folder,
    below_walk_iff, ← resolve_folder]
  rfl

/-! ## A request that leaves the folder -/

/-- The folder `/srv`. -/
def srv : WebFolder where
  path := [47, 115, 114, 118]
  absolute := rfl
  untrailed := by decide

/-- The request line `GET /../x HTTP/1.1`. -/
def climbing : Str :=
  [71, 69, 84, 32, 47, 46, 46, 47, 120, 32, 72, 84, 84, 80, 47, 49, 46, 49,
    13, 10, 13, 10]

theorem opened_inside_iff_climbing :
    Inside srv.path [47, 115, 114, 118, 47, 46, 46, 47, 120] ↔
      Stays srv [47, 46, 46, 47, 120] :=
  opened_inside_iff srv (fun _ => some []) climbing _ (by decide)

/-- The thread opens `/x` when the web folder is `/srv`. -/
theorem exists_opened_outside :
    ¬ ∀ (folder : WebFolder) (files : Str → Option Str)
        (request opened : Str),
        openedFile files folder.path request = some opened →
          Inside folder.path opened := by
  intro always
  have inside :=
    always srv (fun _ => some []) climbing
      [47, 115, 114, 118, 47, 46, 46, 47, 120] (by decide)
  rcases inside with ⟨rest, _, same⟩
  have outside :
      resolve [47, 115, 114, 118, 47, 46, 46, 47, 120] = [[120]] := by
    decide
  have root : resolve srv.path = [[115, 114, 118]] := by
    decide
  rw [outside, root] at same
  cases same

end CodingExamples.PyHttpServer.Target
