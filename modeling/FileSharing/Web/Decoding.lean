import FileSharing.Net.JsonRead
import FileSharing.Web.Handler

/-!
The JSON of the gateway: errors, as package `httperror` writes them and the handlers
read them, and the list of files. What is decoded holds valid UTF-8 and integers of
64 bits, and a written error is decoded again.
-/

namespace FileSharing
open Net

/-- json.Decoder.Decode up to the assignment of the value. A value that no bracket
ends is not complete before the next byte or the end. -/
def decodeValue (body : Body) : Option Json := do
  let (value, rest) ← readJson body.data
  match value with
  | .array _ | .object _ => some value
  | _ => if rest = [] ∧ body.err ≠ none then none else some value

/-- A null leaves a field as it was. -/
def assignInt64 (old : Int) : Json → Option Int
  | .null => some old
  | .number text => parseInt64 text
  | _ => none

def assignString (old : Bytes) : Json → Option Bytes
  | .null => some old
  | .string s => some (written s)
  | _ => none

/-- A field of httperror.Error; the case of its name does not matter. -/
def assignErrorField (e : Int × Bytes) (field : List Scalar × Json) : Option (Int × Bytes) :=
  let name := foldCase (written field.1)
  if name = str "code" then (assignInt64 e.1 field.2).map fun code => (code, e.2)
  else if name = str "description" then
    (assignString e.2 field.2).map fun description => (e.1, description)
  else some e

def assignError : Json → Option (Int × Bytes)
  | .null => some (0, [])
  | .object fields => fields.foldlM assignErrorField (0, [])
  | _ => none

def decodeError (body : Body) : Option (Int × Bytes) := (decodeValue body).bind assignError

/-- json.Encoder.Encode of an httperror.Error. -/
def encodeError (code : Int) (description : Bytes) : Bytes :=
  str "\x7b\"code\":" ++ decimalInt code ++ str ",\"description\":" ++ jsonString description ++
    str "\x7d\n"

example : encodeError 5 (str "no <file>") =
    str "\x7b\"code\":5,\"description\":\"no \\u003cfile\\u003e\"\x7d\n" := by
  decide

/-- A field of an entry of the file list. -/
def assignFileField (f : FileInfo) (field : List Scalar × Json) : Option FileInfo :=
  let name := foldCase (written field.1)
  if name = str "name" then (assignString f.name field.2).map fun name => { f with name }
  else if name = str "size" then (assignInt64 f.size field.2).map fun size => { f with size }
  else if name = str "mod_time" then
    (assignInt64 f.modTime field.2).map fun modTime => { f with modTime }
  else some f

def assignFile : Json → Option FileInfo
  | .null => some ⟨[], 0, 0⟩
  | .object fields => fields.foldlM assignFileField ⟨[], 0, 0⟩
  | _ => none

def assignFiles : Json → Option (List FileInfo)
  | .null => some []
  | .array items => items.mapM assignFile
  | _ => none

def decodeFiles (body : Body) : Option (List FileInfo) := (decodeValue body).bind assignFiles

/-- The library with this JSON. How the decoder words its errors is left open. -/
def Stdlib.withJson (lib : Stdlib) (text : Body → Bytes) : Stdlib :=
  { lib with
    encodeError := FileSharing.encodeError
    decodeError := fun body => (FileSharing.decodeError body).elim (.error (text body)) .ok
    decodeFiles := fun body => (FileSharing.decodeFiles body).elim (.error (text body)) .ok }

def Handler.withJson (h : Handler) (text : Body → Bytes) : Handler :=
  { h with lib := h.lib.withJson text }

/-! What is decoded is well formed. -/

theorem assignInt64_fits {old n : Int} {value : Json} (before : Int64 old)
    (read : assignInt64 old value = some n) : Int64 n := by
  cases value with
  | null =>
      cases read
      exact before
  | number text => exact parseInt64_fits read
  | bool | string | array | object => cases read

theorem assignString_valid {old s : Bytes} {value : Json} (before : toValidUTF8 old = old)
    (read : assignString old value = some s) : toValidUTF8 s = s := by
  cases value with
  | null =>
      cases read
      exact before
  | string s =>
      cases read
      exact toValidUTF8_written s
  | bool | number | array | object => cases read

/-- An error whose fields are what the decoder can give them. -/
structure Wellformed (e : Int × Bytes) : Prop where
  code : Int64 e.1
  description : toValidUTF8 e.2 = e.2

theorem assignErrorField_wellformed {e e' : Int × Bytes} {field : List Scalar × Json}
    (before : Wellformed e) (assigned : assignErrorField e field = some e') : Wellformed e' := by
  rw [assignErrorField] at assigned
  split at assigned
  · obtain ⟨code, read, rfl⟩ := Option.map_eq_some_iff.mp assigned
    exact ⟨assignInt64_fits before.code read, before.description⟩
  · split at assigned
    · obtain ⟨description, read, rfl⟩ := Option.map_eq_some_iff.mp assigned
      exact ⟨before.code, assignString_valid before.description read⟩
    · cases assigned
      exact before

theorem decodeError_wellformed {body : Body} {e : Int × Bytes} (read : decodeError body = some e) :
    Wellformed e := by
  have start : Wellformed (0, []) := ⟨by decide, rfl⟩
  obtain ⟨value, -, read⟩ := Option.bind_eq_some_iff.mp read
  cases value with
  | null =>
      cases read
      exact start
  | object fields =>
      exact foldlM_keeps (fun _ _ _ before => assignErrorField_wellformed before) start read
  | bool | number | string | array => cases read

theorem assignFileField_valid {f f' : FileInfo} {field : List Scalar × Json}
    (before : toValidUTF8 f.name = f.name) (assigned : assignFileField f field = some f') :
    toValidUTF8 f'.name = f'.name := by
  rw [assignFileField] at assigned
  split at assigned
  · obtain ⟨name, read, rfl⟩ := Option.map_eq_some_iff.mp assigned
    exact assignString_valid before read
  · split at assigned
    · obtain ⟨size, -, rfl⟩ := Option.map_eq_some_iff.mp assigned
      exact before
    · split at assigned
      · obtain ⟨modTime, -, rfl⟩ := Option.map_eq_some_iff.mp assigned
        exact before
      · cases assigned
        exact before

theorem assignFile_valid {value : Json} {f : FileInfo} (read : assignFile value = some f) :
    toValidUTF8 f.name = f.name := by
  cases value with
  | null =>
      cases read
      rfl
  | object fields =>
      exact foldlM_keeps (P := fun f : FileInfo => toValidUTF8 f.name = f.name)
        (fun _ _ _ before => assignFileField_valid before) rfl read
  | bool | number | string | array => cases read

/-- The names of decoded files are valid text. -/
theorem decodeFiles_valid {body : Body} {files : List FileInfo}
    (read : decodeFiles body = some files) : ∀ f ∈ files, toValidUTF8 f.name = f.name := by
  have items : ∀ (items : List Json) (files : List FileInfo), items.mapM assignFile = some files →
      ∀ f ∈ files, toValidUTF8 f.name = f.name := by
    intro items
    induction items with
    | nil =>
        intro files read
        cases read
        exact fun f hf => absurd hf List.not_mem_nil
    | cons item items ih =>
        intro files read
        rw [List.mapM_cons] at read
        obtain ⟨f, here, read⟩ := Option.bind_eq_some_iff.mp read
        obtain ⟨rest, later, read⟩ := Option.bind_eq_some_iff.mp read
        cases read
        intro g hg
        cases List.mem_cons.mp hg with
        | inl first => exact first ▸ assignFile_valid here
        | inr hg => exact ih rest later g hg
  obtain ⟨value, -, read⟩ := Option.bind_eq_some_iff.mp read
  cases value with
  | null =>
      cases read
      exact fun f hf => absurd hf List.not_mem_nil
  | array values => exact items values files read
  | bool | number | string | object => cases read

/-! A written error is read back. -/

/-- What is read at the start of a written error, whatever follows it. -/
theorem readJson_encodeError (code : Int) (description rest : Bytes) :
    readJson (encodeError code description ++ rest) =
      some (.object [(scalars (str "code"), .number (decimalInt code)),
        (scalars (str "description"), .string (scalars description))], str "\n" ++ rest) := by
  have names : str "\x7b\"code\":" = 0x7B :: (jsonString (str "code") ++ [colon]) ∧
      str ",\"description\":" = 0x2C :: (jsonString (str "description") ++ [colon]) := by
    decide
  have text : encodeError code description ++ rest =
      0x7B :: (jsonString (str "code") ++ colon :: (decimalInt code ++ 0x2C ::
        (jsonString (str "description") ++ colon :: (jsonString description ++ 0x7D ::
          (str "\n" ++ rest))))) := by
    rw [encodeError, names.1, names.2]
    simp [str]
  have opens : ∀ s : Bytes, ∃ s', jsonString (str "code") ++ s = quote :: s' := fun s => ⟨_, rfl⟩
  have enough : ∃ fuel, 2 * (encodeError code description ++ rest).length + 2 = fuel + 4 := by
    refine ⟨2 * (encodeError code description ++ rest).length - 2, ?_⟩
    rw [text]
    simp only [List.length_cons]
    omega
  obtain ⟨fuel, enough⟩ := enough
  have last := readFields_last (str "description")
    (readTree_string fuel 9999 description (0x7D :: (str "\n" ++ rest)))
  have fields := readFields_cons (str "code") (readTree_decimalInt (fuel + 1) 9999 code (by decide)
    (jsonString (str "description") ++ colon :: (jsonString description ++ 0x7D ::
      (str "\n" ++ rest))))
  rw [last] at fields
  rw [readJson, enough, text, readTree, dropSpace_cons (by decide)]
  obtain ⟨s, first⟩ := opens (colon :: (decimalInt code ++ 0x2C ::
        (jsonString (str "description") ++ colon :: (jsonString description ++ 0x7D ::
          (str "\n" ++ rest)))))
  rw [first] at fields
  simp only [if_true, first, dropSpace_cons (show isJsonSpace quote = false by decide)]
  rw [if_neg (by decide), fields]
  rfl

theorem decodeError_encodeError {code : Int} (fits : Int64 code) (description rest : Bytes)
    (id : Nat) (err : Option Bytes) :
    decodeError ⟨id, encodeError code description ++ rest, err⟩ =
      some (code, toValidUTF8 description) := by
  have names : foldCase (written (scalars (str "code"))) = str "code" ∧
      foldCase (written (scalars (str "description"))) = str "description" ∧
      str "description" ≠ str "code" := by
    decide
  rw [decodeError, decodeValue, readJson_encodeError]
  simp [assignError, List.foldlM, assignErrorField, names, assignInt64,
    parseInt64_decimalInt fits, assignString, toValidUTF8]

end FileSharing
