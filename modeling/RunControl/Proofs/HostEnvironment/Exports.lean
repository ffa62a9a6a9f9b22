import RunControl.HostEnvironment.Exports
import RunControl.Proofs.Table
import RunControl.Proofs.Text.Cut

/-!
Listings of exported variables that stand one after another.

The pieces of a listing that begins with a declaration are taken apart as if nothing stood
before it. So of two listings the later has the say about the variables it gives, and the
other variables are those of the earlier (`get?_parse_append`).
-/

namespace RunControl.HostEnvironment.Exports

/-- A listing that begins with a declaration. -/
def Declares (listing : String) : Prop :=
  start <+: listing.toList

theorem newline_notMem_start : '\n' ∉ start := by decide

/-- The pieces of a listing that follows others on a new line are those of its own and no
others. -/
theorem listingPieces_append (earlier rest : List Char) :
    listingPieces (earlier ++ '\n' :: (start ++ rest)) =
      listingPieces earlier ++ Text.pieces separator separator_ne_nil rest :=
  Text.pieces_append newline_notMem_start separator_ne_nil ('\n' :: earlier) rest

/-- Nothing stands before the first declaration of a listing that begins with it. -/
theorem listingPieces_start (rest : List Char) : listingPieces (start ++ rest) =
    [] :: Text.pieces separator separator_ne_nil rest := by
  have parts : listingPieces (start ++ rest) = Text.pieces separator separator_ne_nil [] ++
      Text.pieces separator separator_ne_nil rest :=
    Text.pieces_append newline_notMem_start separator_ne_nil [] rest
  rw [parts, Text.pieces_of_none rfl]
  rfl

theorem chomp_isPrefix (s : List Char) : chomp s <+: s := by
  unfold chomp
  split
  · exact List.dropLast_prefix s
  · exact List.prefix_rfl

/-- A listing that follows another on a new line overrides it, variable by variable. -/
theorem get?_parse_append {earlier listing : String} (declares : Declares listing)
    (key : String) :
    (parse (earlier ++ "\n" ++ listing)).get? key =
      ((parse listing).get? key).or ((parse earlier).get? key) := by
  obtain ⟨rest, same⟩ := declares
  have both : (earlier ++ "\n" ++ listing).toList =
      earlier.toList ++ '\n' :: (start ++ rest) := by
    rw [same]
    simp
  have nothing : declared? [] = none := rfl
  rw [parse, both, listingPieces_append, List.filterMap_append, Table.get?_ofList_append,
    parse, ← same, listingPieces_start, List.filterMap_cons_none nothing]
  rfl

end RunControl.HostEnvironment.Exports
