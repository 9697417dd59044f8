import WordMachine.Text.Quoted

/-!
Files and directories. A path is followed part by part, so that it can fail where a part is missing,
is no directory or is longer than a name may be. The working directory, the ones above it and the
root always exist.
-/
namespace WordMachine

/-- A path: its root, if it has one, and its parts without empty ones and single points. -/
structure Path where
  root : String
  parts : List String
  deriving DecidableEq, Repr

namespace Path

/-- Two slashes at the front are a root of their own, three or more are the same as one. -/
def rootOf : List Char → String
  | '/' :: '/' :: '/' :: _ => "/"
  | '/' :: '/' :: _ => "//"
  | '/' :: _ => "/"
  | _ => ""

def partsFrom (part : List Char) : List Char → List String
  | [] => [String.ofList part.reverse]
  | c :: rest =>
    if c = '/' then String.ofList part.reverse :: partsFrom [] rest else partsFrom (c :: part) rest

def ofText (text : String) : Path :=
  { root := rootOf text.toList
    parts := (partsFrom [] text.toList).filter fun part => part ≠ "" ∧ part ≠ "." }

def text (p : Path) : String :=
  if p.root = "" ∧ p.parts = [] then "." else p.root ++ "/".intercalate p.parts

def parent (p : Path) : Path := { p with parts := p.parts.dropLast }

/-- Takes a part after others, the last of which comes first; a step back undoes the one before
it. -/
def stepBack (root : String) (before : List String) (part : String) : List String :=
  if part ≠ ".." then part :: before
  else match before with
    | [] => if root = "" then [part] else []
    | last :: rest => if last = ".." then part :: before else rest

def collapse (p : Path) : Path :=
  { p with parts := (p.parts.foldl (stepBack p.root) []).reverse }

end Path

inductive FileFailure where
  | notFound
  | alreadyThere
  | notADirectory
  | isADirectory
  | nameTooLong
  deriving DecidableEq, Repr

def FileFailure.number : FileFailure → Nat
  | .notFound => 2
  | .alreadyThere => 17
  | .notADirectory => 20
  | .isADirectory => 21
  | .nameTooLong => 36

def FileFailure.text : FileFailure → String
  | .notFound => "No such file or directory"
  | .alreadyThere => "File exists"
  | .notADirectory => "Not a directory"
  | .isADirectory => "Is a directory"
  | .nameTooLong => "File name too long"

inductive FileError where
  | refused (failure : FileFailure) (path : String)
  /-- A path with a null character in it names nothing. -/
  | nullInPath
  deriving DecidableEq, Repr

def FileError.message : FileError → String
  | refused failure path => s!"[Errno {failure.number}] {failure.text}: {Text.quoted path}"
  | nullInPath => "embedded null byte"

inductive FileEntry where
  | file (bytes : List UInt8)
  | directory
  deriving DecidableEq, Repr

/-- The entries by their resolved paths, in the order in which they came to be; a path from the root
begins with a slash of its own. -/
structure FileTree where
  entries : List (List String × FileEntry) := []
  deriving DecidableEq, Repr

namespace FileTree

def get? (t : FileTree) (parts : List String) : Option FileEntry :=
  (t.entries.find? fun e => e.1 == parts).map (·.2)

def put (t : FileTree) (parts : List String) (entry : FileEntry) : FileTree :=
  if (t.get? parts).isSome then
    { entries := t.entries.map fun e => if e.1 == parts then (parts, entry) else e }
  else { entries := t.entries ++ [(parts, entry)] }

theorem get?_put_self (t : FileTree) (parts : List String) (entry : FileEntry) :
    (t.put parts entry).get? parts = some entry := by
  obtain ⟨entries⟩ := t
  unfold put
  split
  next h =>
    induction entries with
    | nil => simp [get?] at h
    | cons e es ih =>
      by_cases he : e.1 = parts
      · simp [get?, he]
      · simp only [get?, List.find?_cons, List.map_cons, beq_iff_eq, he, if_false] at h ih ⊢
        simp only [show (e.1 == parts) = false by simpa using he] at h ⊢
        exact ih h
  next h =>
    cases found : entries.find? fun e => e.1 == parts with
    | some e => exact absurd (by rw [get?, found]; rfl) h
    | none => simp [get?, List.find?_append, found]

theorem get?_put_of_ne (t : FileTree) {parts others : List String} (entry : FileEntry)
    (h : parts ≠ others) : (t.put parts entry).get? others = t.get? others := by
  obtain ⟨entries⟩ := t
  unfold put
  split
  next hp =>
    clear hp
    induction entries with
    | nil => rfl
    | cons e es ih =>
      simp only [get?, List.map_cons, List.find?_cons] at ih ⊢
      by_cases he : e.1 = parts
      · have differ : (parts == others) = false := by simpa using h
        simp only [he, beq_self_eq_true, if_true, differ]
        exact ih
      · have differ : (e.1 == parts) = false := by simpa using he
        simp only [differ, Bool.false_eq_true, if_false]
        split
        · rfl
        · exact ih
  next => simp [get?, List.find?_append, h]

theorem put_put (t : FileTree) (parts : List String) (before entry : FileEntry) :
    (t.put parts before).put parts entry = t.put parts entry := by
  have hthere : ((t.put parts before).get? parts).isSome := by rw [get?_put_self]; rfl
  rw [put, if_pos hthere]
  unfold put
  split
  next =>
    simp only [List.map_map, mk.injEq]
    refine List.map_congr_left fun e _ => ?_
    by_cases he : e.1 = parts <;> simp [he]
  next habsent =>
    have hnone : ∀ entry, (parts, entry) ∉ t.entries := by simpa [get?] using habsent
    have hothers : ∀ e ∈ t.entries, e.1 ≠ parts := fun e he heq => hnone e.2 (heq ▸ he)
    have hkept : t.entries.map (fun e => if e.1 == parts then (parts, entry) else e) = t.entries :=
      (List.map_congr_left fun e he => if_neg (by simpa using hothers e he)).trans (List.map_id _)
    rw [List.map_append, hkept]
    simp

/-- The working directory, one above it, or the root. -/
def isFixed (parts : List String) : Bool := parts.all (· == "..") || parts == ["/"]

def entryAt (t : FileTree) (parts : List String) : Option FileEntry :=
  if isFixed parts then some .directory else t.get? parts

/-- The resolved path of a part of a directory; there is nothing above the root. -/
def descend (done : List String) (part : String) : List String :=
  if part ≠ ".." then done ++ [part]
  else if done = ["/"] then done
  else if done.all (· == "..") then done ++ [part]
  else done.dropLast

def nameLimit : Nat := 255

def pathLimit : Nat := 4095

def follow (t : FileTree) (done : List String) : List String → Except FileFailure (List String)
  | [] => .ok done
  | part :: rest =>
    match t.entryAt done with
    | none => .error .notFound
    | some (.file _) => .error .notADirectory
    | some .directory =>
      if nameLimit < part.utf8ByteSize then .error .nameTooLong
      else t.follow (descend done part) rest

/-- The resolved path of what a path leads to, which need not exist. -/
def locate (t : FileTree) (p : Path) : Except FileError (List String) :=
  if '\x00' ∈ p.text.toList then .error .nullInPath
  else if pathLimit < p.text.utf8ByteSize then .error (.refused .nameTooLong p.text)
  else (t.follow (if p.root = "" then [] else ["/"]) p.parts).mapError (.refused · p.text)

def read (t : FileTree) (p : Path) : Except FileError (List UInt8) := do
  let parts ← t.locate p
  match t.entryAt parts with
  | none => throw (.refused .notFound p.text)
  | some .directory => throw (.refused .isADirectory p.text)
  | some (.file bytes) => return bytes

def update (t : FileTree) (p : Path) (change : List UInt8 → List UInt8) :
    Except FileError FileTree := do
  let parts ← t.locate p
  match t.entryAt parts with
  | some .directory => throw (.refused .isADirectory p.text)
  | some (.file bytes) => return t.put parts (.file (change bytes))
  | none => return t.put parts (.file (change []))

def write (t : FileTree) (p : Path) (bytes : List UInt8) : Except FileError FileTree :=
  t.update p fun _ => bytes

def append (t : FileTree) (p : Path) (bytes : List UInt8) : Except FileError FileTree :=
  t.update p (· ++ bytes)

def makeDirectory (t : FileTree) (p : Path) : Except FileError FileTree := do
  let parts ← t.locate p
  match t.entryAt parts with
  | some _ => throw (.refused .alreadyThere p.text)
  | none => return t.put parts .directory

def ensureDirectory (t : FileTree) (p : Path) : FileTree × Option FileError :=
  match t.makeDirectory p with
  | .ok t => (t, none)
  | .error e =>
    match (t.locate p).toOption.bind t.entryAt with
    | some .directory => (t, none)
    | _ => (t, some e)

/-- Makes a directory and, where they are missing, the ones above it, which stay even if the
directory itself cannot be made; the number bounds how many of those there are. -/
def ensureDirectories (t : FileTree) (p : Path) : Nat → FileTree × Option FileError
  | 0 => t.ensureDirectory p
  | n + 1 =>
    match t.makeDirectory p with
    | .ok t => (t, none)
    | .error (.refused .notFound path) =>
      if p.parts = [] then (t, some (.refused .notFound path))
      else match t.ensureDirectories p.parent n with
        | (t, none) => t.ensureDirectory p
        | failed => failed
    | .error _ => t.ensureDirectory p

end FileTree

end WordMachine
