import MethodLinkage.Classes.Archive.EndRecord

/-!
# Archives

An archive is read from its end: the last end record counts whose directory can be
read. What follows an end record, and what stands in front of the archive, does not
matter.
-/

namespace MethodLinkage

namespace Archive

/-- Tries end records in turn. If none is good, the cause is that of the first bad one;
one that names no directory replaces the cause, and an unreadable directory clears it. -/
def firstReadable (content : Bytes) (fileSize : Nat) (error : Option ArchiveError) :
    List (Nat × Bytes) → Except ArchiveError (List ArchiveEntry)
  | [] => .error (error.getD .malformed)
  | (place, bytes) :: earlier =>
    match EndRecord.read fileSize place bytes with
    | .error cause => firstReadable content fileSize (error <|> some cause) earlier
    | .ok record =>
      match record.locate content with
      | .error cause => firstReadable content fileSize (some cause) earlier
      | .ok directory? =>
        match directory?.bind (·.entries? content) with
        | none => firstReadable content fileSize none earlier
        | some entries => .ok entries

def entries (content : Bytes) : Except ArchiveError (List ArchiveEntry) :=
  firstReadable content content.length none (Bytes.placesOf EndRecord.mark content)

/-- Of several entries of one name the last counts. -/
def named? (entries : List ArchiveEntry) (name : Text) : Option ArchiveEntry :=
  entries.reverse.find? (·.name = name)

def find (content : Bytes) (name : Text) : Except ArchiveError (Option ArchiveEntry) := do
  match named? (← entries content) name with
  | none => pure none
  | some entry =>
    entry.openIn content
    pure (some entry)

end Archive

end MethodLinkage
