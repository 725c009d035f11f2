import CardGuru.Model.Card

/-! What the program shares with all its users: the database, the storage bucket and their writes. -/

namespace CardGuru

/-- A location in the storage bucket, as its pieces between slashes. -/
abbrev StoragePath := List String

/-- The canonical form of a storage path, without empty pieces. -/
def standardizedPath (string : String) : StoragePath :=
  -- Leading, trailing and doubled slashes make no difference.
  ((string.toList.splitOn '/').filter fun piece => !piece.isEmpty).map String.ofList

/-- An object of the storage bucket. -/
structure StoredObject where
  path : StoragePath
  data : Data
  /-- The address under which the object can be downloaded. -/
  downloadURL : String
deriving DecidableEq

/-- The functions of the platform and its libraries that are taken as they are documented. -/
structure Platform where
  /-- `Storage.reference(forURL:)` of the vendored storage client (`FIRStorage.m`, `FIRStoragePath.m`), taken
  as a parameter since it leaves the parsing to `NSURL`: the object that a URL names, or the exception for a
  URL of another form or bucket. What a result uses of it, it states as a hypothesis that this client meets. -/
  referenceForURL : String → Except Fault StoragePath
  /-- `==` on strings, which compares characters up to their canonical equivalence. -/
  equals : String → String → Bool
  /-- Every string equals itself. -/
  equals_self : ∀ text, equals text text = true
  /-- `String.lowercased()`. -/
  lowercased : String → String
  /-- `String.starts(with:)`, a comparison of extended characters. -/
  startsWith : String → String → Bool
  /-- `String.capitalized`. -/
  capitalized : String → String

/-- Percent escapes of a URL replaced by the characters they stand for. -/
def removePercentEncoding : List Char → List Char
  -- Hexadecimal digits are taken as the escapes of the program's own URLs write them.
  | '%' :: high :: low :: rest =>
    let digit := fun c : Char => if c.isDigit then c.toNat - 48 else c.toNat - 55
    Char.ofNat (16 * digit high + digit low) :: removePercentEncoding rest
  | c :: rest => c :: removePercentEncoding rest
  | [] => []

/-- The address prefix of the objects in the bucket of the program. -/
def bucketURL : String :=
  "https://firebasestorage.googleapis.com/v0/b/cardguruapp.appspot.com/o/"

/-- The platform functions as they behave on ASCII strings and on addresses of the own bucket. -/
def Platform.ascii : Platform where
  referenceForURL url :=
    match url.toList.dropPrefix? bucketURL.toList with
    -- The object name ends where the parameters of the address begin.
    | some (c :: object) =>
      .ok (standardizedPath
        (String.ofList (removePercentEncoding ((c :: object).takeWhile fun c => c ≠ '?'))))
    | _ => .error (.invalidStorageURL url)
  -- Strings of ASCII characters are equal only if they are the same.
  equals first second := first = second
  equals_self _ := decide_eq_true rfl
  lowercased text := String.ofList (text.toList.map Char.toLower)
  startsWith text start := start.toList.isPrefixOf text.toList
  capitalized text :=
    match text.toList.map Char.toLower with
    | [] => ""
    | first :: rest => String.ofList (first.toUpper :: rest)

/-- The state kept by the database and the storage bucket. -/
structure Server where
  database : Database
  /-- The database writes issued so far, in the order in which they apply. -/
  writes : List DatabaseWrite
  objects : List StoredObject

namespace Server

/-- Issue a database write; a value that is too large raises. -/
def perform (server : Server) (write : DatabaseWrite) : Except Fault Server :=
  match write.values.find? fun leaf => !leaf.isValidLeafValue with
  | some (.string text) => .error (.invalidFirebaseData text)
  -- Numbers and truth values are never too large.
  | some _ => .error (.invalidFirebaseData "")
  | none =>
    .ok { server with
      database := server.database.apply write
      writes := server.writes ++ [write] }

/-- Store an object, replacing the one at the same path. -/
def putData (server : Server) (object : StoredObject) : Server :=
  { server with
    objects := server.objects.filter (fun stored => stored.path ≠ object.path) ++ [object] }

/-- Delete the object at a path. -/
def delete (server : Server) (path : StoragePath) : Server :=
  -- Deleting an absent object fails without effect.
  { server with objects := server.objects.filter fun stored => stored.path ≠ path }

/-- A write that does not raise applies and is recorded. -/
theorem perform_ok {server after : Server} {write : DatabaseWrite}
    (done : server.perform write = .ok after) :
    after = { server with
      database := server.database.apply write
      writes := server.writes ++ [write] } := by
  -- The other two branches raise.
  unfold perform at done
  split at done
  · cases done
  · cases done
  · cases done
    rfl

@[simp] theorem database_putData (server : Server) (object : StoredObject) :
    (server.putData object).database = server.database := rfl

@[simp] theorem writes_putData (server : Server) (object : StoredObject) :
    (server.putData object).writes = server.writes := rfl

@[simp] theorem database_delete (server : Server) (path : StoragePath) :
    (server.delete path).database = server.database := rfl

@[simp] theorem writes_delete (server : Server) (path : StoragePath) :
    (server.delete path).writes = server.writes := rfl

end Server

end CardGuru
