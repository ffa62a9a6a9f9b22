import Mathlib.Data.List.Perm.Basic
import RunControl.Components.Reply
import RunControl.Proofs.Wire.RoundTrip
import RunControl.Proofs.Wire.Skipping

/-!
Replies laid out in any way.

The fields of a reply may come in any order, with fields that are not known between them, and so may
those of each module's part. Every field is taken by itself and changes its own place in the result
only, so what is read is the result that the fields were written of (`Arranged.decode`).
-/

namespace RunControl

open Utf8 (Bytes)

namespace Wire

variable {α ρ γ δ : Type} {bytes rest : Bytes} {tag depth : Nat} {name text : String}

/-! ### Arrangements -/

/-- The bytes are what is written of the items in this order, with foreign bytes at any places. -/
inductive Strewn (written : α → Bytes → Prop) (foreign : Bytes → Prop) : List α → Bytes → Prop where
  | nil : Strewn written foreign [] []
  | item {a : α} {items : List α} {bytes rest : Bytes} (here : written a bytes)
      (others : Strewn written foreign items rest) :
      Strewn written foreign (a :: items) (bytes ++ rest)
  | foreign {items : List α} {bytes rest : Bytes} (here : foreign bytes)
      (others : Strewn written foreign items rest) :
      Strewn written foreign items (bytes ++ rest)

/-- The items come in some order. -/
def Arranged (written : α → Bytes → Prop) (foreign : Bytes → Prop) (items : List α)
    (bytes : Bytes) : Prop :=
  ∃ order, order.Perm items ∧ Strewn written foreign order bytes

/-- What takes a reader along item by item, and stays where it is at foreign bytes, takes it along
all of them. -/
theorem Strewn.takes {written : α → Bytes → Prop} {foreign : Bytes → Prop} {items : List α}
    {step : ρ → Bytes → Except DecodeError (ρ × Bytes)} {act : ρ → α → ρ}
    (known : ∀ a bytes r, written a bytes → bytes.length < UInt64.size →
      Takes step r bytes (act r a))
    (unknown : ∀ bytes r, foreign bytes → Takes step r bytes r)
    (strewn : Strewn written foreign items bytes) (short : bytes.length < UInt64.size) (r : ρ) :
    Takes step r bytes (items.foldl act r) := by
  induction strewn generalizing r with
  | nil => exact .nil step r
  | item here others ih =>
      rw [List.length_append] at short
      exact (known _ _ r here (by omega)).append (ih (by omega) _)
  | foreign here others ih =>
      rw [List.length_append] at short
      exact (unknown _ r here).append (ih (by omega) r)

theorem Strewn.single {written : α → Bytes → Prop} {foreign : Bytes → Prop} {a : α}
    (here : written a bytes) : Strewn written foreign [a] bytes := by
  have strewn : Strewn written foreign [a] (bytes ++ []) := .item here .nil
  rwa [List.append_nil] at strewn

/-- What becomes of a place in a record hangs on the items for this place only. -/
theorem foldl_place (act : ρ → α → ρ) (place : ρ → γ) (part? : α → Option δ) (put : γ → δ → γ)
    (each : ∀ r a, place (act r a) = ((part? a).map (put (place r))).getD (place r))
    (items : List α) (r : ρ) :
    place (items.foldl act r) = (items.filterMap part?).foldl put (place r) := by
  induction items generalizing r with
  | nil => rfl
  | cons a items ih =>
      rw [List.foldl_cons, ih, each]
      cases part : part? a with
      | none => rw [List.filterMap_cons_none part]; rfl
      | some d => rw [List.filterMap_cons_some part]; rfl

/-! ### What is written of a result -/

/-- A field that a message does not know whose fields have the numbers up to `known`. -/
def Unknown (known : Nat) (bytes : Bytes) : Prop :=
  ∃ tag, known < tag ∧ Foreign 90 tag bytes

/-- A text with its key. Nothing is written of an empty one. -/
def writeText (tag : Nat) (text : String) : Bytes :=
  if text = "" then [] else Payload.text.writeField tag text

/-- The text that is there after another one was read, which is not written if it is empty. -/
def replaced (before text : String) : String :=
  if text = "" then before else text

theorem replaced_empty (text : String) : replaced "" text = text := by
  unfold replaced
  split
  · rename_i empty
    exact empty.symm
  · rfl

/-- The texts that results have. -/
inductive TextPart where
  | status (text : String)
  | response (text : String)

namespace TextPart

/-- What is written of a text. -/
def write : TextPart → Bytes
  | .status text => writeText 1 text
  | .response text => writeText 2 text

def Written (part : TextPart) (bytes : Bytes) : Prop :=
  bytes = part.write

def status? : TextPart → Option String
  | .status text => some text
  | .response _ => none

def response? : TextPart → Option String
  | .status _ => none
  | .response text => some text

end TextPart

/-- The bytes are a module's part: its texts in some order, and unknown fields. -/
def ModuleResult.Arranged (m : ModuleResult) (bytes : Bytes) : Prop :=
  Wire.Arranged TextPart.Written (Unknown 2) [.status m.status, .response m.response] bytes

/-- The bytes are the entry of a module: its name, and its part in some arrangement. -/
inductive WrittenEntry (name : String) (m : ModuleResult) : Bytes → Prop where
  | whole {content : Bytes} (arranged : m.Arranged content) :
      WrittenEntry name m (writeKey 3 .lengthDelimited ++ writeDelimited
        (writeText 1 name ++ (writeKey 2 .lengthDelimited ++ writeDelimited content)))
  /-- A part of which nothing is written may be left out. -/
  | silent (blank : m = ⟨"", ""⟩) :
      WrittenEntry name m (writeKey 3 .lengthDelimited ++ writeDelimited (writeText 1 name))

/-- The pieces of a result. -/
inductive Piece where
  | text (part : TextPart)
  | module (name : String) (m : ModuleResult)

namespace Piece

/-- The bytes are what is written of a piece. -/
def Written : Piece → Bytes → Prop
  | .text part, bytes => part.Written bytes
  | .module name m, bytes => WrittenEntry name m bytes

def text? (part? : TextPart → Option String) : Piece → Option String
  | .text part => part? part
  | .module _ _ => none

def entry? : Piece → Option (String × ModuleResult)
  | .text _ => none
  | .module name m => some (name, m)

end Piece

namespace CommandResult

/-- The pieces of a result, one for each module. -/
def pieces (r : CommandResult) : List Piece :=
  .text (.status r.status) :: .text (.response r.response) ::
    r.modules.entries.map fun e => .module e.1 e.2

/-- The bytes are a result: its pieces in some order, and unknown fields. -/
def Arranged (r : CommandResult) (bytes : Bytes) : Prop :=
  Wire.Arranged Piece.Written (Unknown 3) r.pieces bytes

end CommandResult

/-! ### Reading pieces -/

/-- A text is taken, and replaces the one that is there. -/
theorem takes_text {get : ρ → String} {set : ρ → String → ρ}
    {step : ρ → Bytes → Except DecodeError (ρ × Bytes)}
    (served : (Field.single tag name .text get set).Served depth step)
    (short : (writeText tag text).length < UInt64.size) {r : ρ} (same : set r (get r) = r) :
    Takes step r (writeText tag text) (set r (replaced (get r) text)) := by
  unfold writeText replaced at *
  split
  · rw [same]
    exact .nil step r
  · rename_i some
    rw [if_neg some, Payload.writeField, List.length_append] at short
    refine served.takes fun rest => ?_
    have read := (Payload.text_lawful 0).readAs_write (Nat.zero_le depth) (a := text) (by omega) rest
    show Payload.text.readAs depth .lengthDelimited (get r) _ >>= _ = _
    rw [show Payload.text.readAs depth .lengthDelimited (get r) _ = _ from read, ok_bind]
    rfl

/-- Unknown fields leave a record as it is whose fields have the numbers up to `known`. -/
theorem Unknown.takes {known : Nat} {fields : List (Field ρ)} (unknown : Unknown known bytes)
    (tags : ∀ f ∈ fields, f.tag ≤ known) (deep : 90 < depth)
    (blame : Field ρ → DecodeError → DecodeError) (r : ρ) :
    Takes (mergeField fields blame depth) r bytes r := by
  obtain ⟨tag, beyond, foreign⟩ := unknown
  refine foreign.takes (fun f member same => ?_) deep blame r
  have := tags f member
  omega

namespace ModuleResult

/-- A module's part with a text in its place. -/
def put (m : ModuleResult) : TextPart → ModuleResult
  | .status text => { m with status := replaced m.status text }
  | .response text => { m with response := replaced m.response text }

/-- The texts of a part make it, in either order. -/
theorem foldl_put {m : ModuleResult} {order : List TextPart}
    (perm : order.Perm [.status m.status, .response m.response]) :
    order.foldl put moduleResult.blank = m := by
  have statuses : order.filterMap TextPart.status? = [m.status] :=
    List.perm_singleton.mp (perm.filterMap _)
  have responses : order.filterMap TextPart.response? = [m.response] :=
    List.perm_singleton.mp (perm.filterMap _)
  have status := foldl_place put status TextPart.status? replaced
    (fun m part => by cases part <;> rfl) order moduleResult.blank
  have response := foldl_place put response TextPart.response? replaced
    (fun m part => by cases part <;> rfl) order moduleResult.blank
  rw [statuses] at status
  rw [responses] at response
  show (⟨(order.foldl put _).status, (order.foldl put _).response⟩ : ModuleResult) = m
  rw [status, response]
  exact congrArg₂ mk (replaced_empty m.status) (replaced_empty m.response)

theorem served (depth : Nat) : ∀ f ∈ moduleResult.fields,
    f.Served depth (moduleResult.merge depth) :=
  fun _ member => served_mergeField moduleResult_layout.tags member
    (moduleResult_layout.lawful _ member) _ depth

/-- A part is taken in every arrangement. -/
theorem Arranged.takes {m : ModuleResult} (arranged : m.Arranged bytes) (deep : 90 < depth)
    (short : bytes.length < UInt64.size) :
    Takes (moduleResult.merge depth) moduleResult.blank bytes m := by
  obtain ⟨order, perm, strewn⟩ := arranged
  rw [← foldl_put perm]
  refine strewn.takes (fun part bytes r written short => ?_) (fun bytes r unknown => ?_) short _
  · obtain rfl := written
    cases part with
    | status text => exact takes_text (served depth _ (.head _)) short rfl
    | response text => exact takes_text (served depth _ (.tail _ (.head _))) short rfl
  · exact unknown.takes (by decide) deep _ r

end ModuleResult

namespace CommandResult

/-- A result with a piece in its place. -/
def put (r : CommandResult) : Piece → CommandResult
  | .text (.status text) => { r with status := replaced r.status text }
  | .text (.response text) => { r with response := replaced r.response text }
  | .module name m => { r with modules := r.modules.insert name m }

theorem filterMap_text {r : CommandResult} {order : List Piece} (perm : order.Perm r.pieces)
    (part? : TextPart → Option String) : (order.filterMap (Piece.text? part?)).Perm
      ([TextPart.status r.status, .response r.response].filterMap part?) := by
  have others : (r.modules.entries.map fun e => Piece.module e.1 e.2).filterMap
      (Piece.text? part?) = [] := by
    rw [List.filterMap_map]
    exact List.filterMap_eq_nil_iff.mpr fun e _ => rfl
  refine (perm.filterMap _).trans (.of_eq ?_)
  simp only [pieces, List.filterMap_cons, others]
  rfl

theorem filterMap_entry {r : CommandResult} {order : List Piece} (perm : order.Perm r.pieces) :
    (order.filterMap Piece.entry?).Perm r.modules.entries := by
  have others : (r.modules.entries.map fun e => Piece.module e.1 e.2).filterMap Piece.entry? =
      r.modules.entries := by
    rw [List.filterMap_map]
    exact List.filterMap_some
  exact (perm.filterMap _).trans (.of_eq others)

/-- The pieces of a result make it, in whatever order. -/
theorem foldl_put {r : CommandResult} {order : List Piece} (perm : order.Perm r.pieces) :
    order.foldl put commandResult.blank = r := by
  have statuses : order.filterMap (Piece.text? TextPart.status?) = [r.status] :=
    List.perm_singleton.mp (filterMap_text perm TextPart.status?)
  have responses : order.filterMap (Piece.text? TextPart.response?) = [r.response] :=
    List.perm_singleton.mp (filterMap_text perm TextPart.response?)
  have status := foldl_place put status (Piece.text? TextPart.status?) replaced
    (fun r piece => by rcases piece with (_ | _) | _ <;> rfl) order commandResult.blank
  have response := foldl_place put response (Piece.text? TextPart.response?) replaced
    (fun r piece => by rcases piece with (_ | _) | _ <;> rfl) order commandResult.blank
  have modules := foldl_place put modules Piece.entry? (fun t e => t.insert e.1 e.2)
    (fun r piece => by rcases piece with (_ | _) | _ <;> rfl) order commandResult.blank
  rw [statuses] at status
  rw [responses] at response
  have table : (order.filterMap Piece.entry?).foldl (fun t e => t.insert e.1 e.2) .empty =
      r.modules := Table.ofList_eq_of_perm (filterMap_entry perm)
  show (⟨(order.foldl put _).status, (order.foldl put _).response,
    (order.foldl put _).modules⟩ : CommandResult) = r
  rw [status, response, modules]
  show (⟨replaced "" r.status, replaced "" r.response, _⟩ : CommandResult) = r
  rw [replaced_empty, replaced_empty]
  exact congrArg (mk r.status r.response) table

theorem served {f : Field CommandResult} (member : f ∈ commandResult.fields) (depth : Nat) :
    f.Served depth (commandResult.merge depth) :=
  served_mergeField commandResult_layout.tags member (commandResult_layout.lawful f member) _ depth

/-- An entry is taken in every arrangement, and put into the table. -/
theorem takes_entry {name : String} {m : ModuleResult} (written : WrittenEntry name m bytes)
    (short : bytes.length < UInt64.size) (r : CommandResult) :
    Takes (commandResult.merge depthLimit) r bytes (r.put (.module name m)) := by
  -- Entries are one level down, and the parts in them two.
  let blank : String × ModuleResult := ("", moduleResult.blank)
  let step := mergeField (entryFields moduleResult.payload) (fun _ e => e) 99
  have layout := entryFields_layout moduleResult_layout.payload_lawful
  have inside {f : Field (String × ModuleResult)}
      (member : f ∈ entryFields moduleResult.payload) : f.Served 99 step :=
    served_mergeField layout.tags member (layout.lawful f member) _ 99
  have named (short : (writeText 1 name).length < UInt64.size) :
      Takes step blank (writeText 1 name) (name, moduleResult.blank) := by
    have takes := takes_text (inside (.head _)) short (r := blank) rfl
    rwa [show replaced blank.1 name = name from replaced_empty name] at takes
  have entry {content : Bytes} (takes : Takes step blank content (name, m))
      (short : (writeKey 3 .lengthDelimited ++ writeDelimited content).length < UInt64.size) :
      Takes (commandResult.merge depthLimit) r
        (writeKey 3 .lengthDelimited ++ writeDelimited content) (r.put (.module name m)) := by
    rw [List.length_append, length_writeDelimited] at short
    refine (served (.tail _ (.tail _ (.head _))) depthLimit).takes fun rest => ?_
    show mergeDelimited step blank _ >>= _ = _
    rw [mergeDelimited_writeDelimited takes (by omega), ok_bind]
    rfl
  cases written with
  | whole arranged =>
      refine entry ?_ short
      rw [List.length_append, length_writeDelimited, List.length_append, List.length_append,
        length_writeDelimited] at short
      refine (named (by omega)).append ((inside (.tail _ (.head _))).takes fun rest => ?_)
      have part : Takes (moduleResult.merge 98) moduleResult.blank _ m :=
        arranged.takes (by decide) (by omega)
      have read : moduleResult.payload.readAs 99 .lengthDelimited moduleResult.blank _ = _ :=
        mergeDelimited_writeDelimited part (by omega) rest
      show moduleResult.payload.readAs 99 .lengthDelimited moduleResult.blank _ >>= _ = _
      rw [read, ok_bind]
      rfl
  | silent nothing =>
      refine entry ?_ short
      rw [List.length_append, length_writeDelimited] at short
      exact nothing ▸ named (by omega)

/-- A result is read in every arrangement. -/
theorem Arranged.decode {r : CommandResult} (arranged : r.Arranged bytes)
    (short : bytes.length < UInt64.size) : commandResult.decode bytes = .ok r := by
  obtain ⟨order, perm, strewn⟩ := arranged
  rw [← foldl_put perm]
  refine decode_of_takes (strewn.takes (fun piece bytes r written short => ?_)
    (fun bytes r unknown => ?_) short _)
  · cases piece with
    | text part =>
        obtain rfl := written
        cases part with
        | status text => exact takes_text (served (.head _) depthLimit) short rfl
        | response text => exact takes_text (served (.tail _ (.head _)) depthLimit) short rfl
    | module name m => exact takes_entry written short r
  · exact unknown.takes (by decide) (by decide) _ r

/-! ### The usual arrangement -/

theorem write_text (name : String) {get : ρ → String} {set : ρ → String → ρ} (r : ρ) :
    (Field.single tag name .text get set).write r = writeText tag (get r) := by
  simp only [Field.single, Payload.text, decide_eq_true_eq]
  rfl

theorem arranged_encode_part (m : ModuleResult) : m.Arranged (moduleResult.encode m) := by
  have parts : moduleResult.encode m = writeText 1 m.status ++ (writeText 2 m.response ++ []) := by
    rw [← write_text "status", ← write_text "response"]
    rfl
  rw [parts, List.append_nil]
  exact ⟨_, .refl _, .item rfl (.single rfl)⟩

theorem writtenEntry_writeEntry (e : String × ModuleResult) :
    WrittenEntry e.1 e.2 (writeEntry 3 moduleResult.payload e) := by
  have fields : writeFields (entryFields moduleResult.payload) e = writeText 1 e.1 ++
      ((if moduleResult.payload.isZero e.2 then [] else moduleResult.payload.writeField 2 e.2) ++
        []) := by
    rw [← write_text "key"]
    rfl
  rw [writeEntry, fields, List.append_nil]
  split
  · rename_i zero
    rw [List.append_nil]
    exact .silent (of_decide_eq_true zero)
  · exact .whole (arranged_encode_part e.2)

/-- What is written of a result is one of its arrangements. -/
theorem arranged_encode (r : CommandResult) : r.Arranged (commandResult.encode r) := by
  have entries (es : List (String × ModuleResult)) : Strewn Piece.Written (Unknown 3)
      (es.map fun e => .module e.1 e.2) (es.flatMap (writeEntry 3 moduleResult.payload)) := by
    induction es with
    | nil => exact .nil
    | cons e es ih => exact .item (writtenEntry_writeEntry e) ih
  have parts : commandResult.encode r = writeText 1 r.status ++ (writeText 2 r.response ++
      (r.modules.entries.flatMap (writeEntry 3 moduleResult.payload) ++ [])) := by
    rw [← write_text "status", ← write_text "response"]
    rfl
  rw [parts, List.append_nil]
  exact ⟨_, .refl _, .item rfl (.item rfl (entries _))⟩

end CommandResult

end Wire

namespace Reply

open Wire (CommandResult ModuleResult)

/-- A result is laid out in whatever way, in fewer than 2^64 bytes. If it has a status, a reply with
the same status, response and modules is read, and it shows the same states of every component's
modules. If it has none, the reply is rejected for this. -/
theorem decode_of_arranged (r : CommandResult) (bytes : Bytes) (arranged : r.Arranged bytes)
    (short : bytes.length < 2 ^ 64) :
    (r.status ≠ "" → decode bytes = .ok ⟨r.status, r.response, r.modules⟩ ∧
      ∀ component, (decode bytes).map (statusReport · component) =
        .ok (statusReport ⟨r.status, r.response, r.modules⟩ component)) ∧
      (r.status = "" → decode bytes = .error (.malformedReply "command result has no status")) := by
  have read := arranged.decode short
  constructor
  · intro stated
    have reply : decode bytes = .ok ⟨r.status, r.response, r.modules⟩ := by
      rw [decode, read]
      exact if_neg stated
    refine ⟨reply, fun component => ?_⟩
    rw [reply]
    rfl
  · intro empty
    rw [decode, read]
    exact if_pos empty

/-- A result with one module. -/
def running : CommandResult :=
  ⟨"Success", "done", .ofList [("source", ⟨"Success", "running"⟩)]⟩

/-- The response stands in front, then come a group, the module's part with its own response first
and an overlong unknown number behind it, and the status. -/
theorem decode_of_arranged_running :
    let part := Wire.writeText 2 "running" ++ ([24, 128, 0] ++ Wire.writeText 1 "Success")
    let entry := Wire.writeKey 3 .lengthDelimited ++ Wire.writeDelimited
      (Wire.writeText 1 "source" ++ (Wire.writeKey 2 .lengthDelimited ++ Wire.writeDelimited part))
    let bytes := Wire.writeText 2 "done" ++ ([35, 8, 150, 1, 36] ++
      (entry ++ Wire.writeText 1 "Success"))
    running.Arranged bytes ∧ bytes.length < 2 ^ 64 ∧
      decode bytes = .ok ⟨running.status, running.response, running.modules⟩ := by
  intro part entry bytes
  have key {tag : Nat} (positive : 0 < tag) (fits : tag < 2 ^ 29) (form : Wire.WireType) :=
    Wire.isKey_writeKey positive fits form
  have number : Wire.Foreign 90 3 [24, 128, 0] :=
    .varint (key (by decide) (by decide) .varint) (.more (by decide) (.last (by decide) nofun))
  have inside : ∀ f ∈ [(1, [8, 150, 1])], Wire.Foreign 89 f.1 f.2 := by
    intro f member
    obtain rfl := List.mem_singleton.mp member
    exact .varint (key (by decide) (by decide) .varint)
      (.more (by decide) (.last (by decide) nofun))
  have group : Wire.Foreign 90 4 [35, 8, 150, 1, 36] :=
    .group (key (by decide) (by decide) .startGroup) inside (key (by decide) (by decide) .endGroup)
  have whole : ModuleResult.Arranged ⟨"Success", "running"⟩ part :=
    ⟨[.response "running", .status "Success"], .swap _ _ _,
      .item rfl (.foreign ⟨3, by decide, number⟩ (.single rfl))⟩
  let first : List Wire.Piece := [.text (.response "done"), .module "source" ⟨"Success", "running"⟩]
  let last : Wire.Piece := .text (.status "Success")
  have perm : (first ++ [last]).Perm running.pieces := List.perm_append_singleton last first
  have arranged : running.Arranged bytes :=
    ⟨_, perm, .item rfl (.foreign ⟨4, by decide, group⟩ (.item (.whole whole) (.single rfl)))⟩
  have short : bytes.length < 2 ^ 64 := by decide +kernel
  exact ⟨arranged, short, ((decode_of_arranged running bytes arranged short).1 (by decide)).1⟩

end Reply

end RunControl
