import DocStore.Json.Token

/-!
JSON values read from tokens, by a machine that keeps the containers that are still open.
-/

namespace DocStore.Json

/-- An open container with what it holds so far, in reverse. -/
inductive Frame where
  | array (before : List Json)
  | object (before : List (Option String × Json)) (key : Option String)

inductive Machine where
  | wantValue (frames : List Frame)
  | wantItem (frames : List Frame)
  | wantFirstKey (frames : List Frame)
  | wantKey (before : List (Option String × Json)) (frames : List Frame)
  | wantColon (before : List (Option String × Json)) (key : Option String) (frames : List Frame)
  | after (value : Json) (frames : List Frame)

/-- A completed object. One unreadable key makes it unreadable. -/
def ofMembers (members : List (Option String × Json)) : Json :=
  match members.mapM fun (key, value) => key.map (·, value) with
  | some members => .object members
  | none => .unreadable (members.any fun (_, value) => !value.isSkippable)

/-- A key, which may be unreadable. Bare control characters are refused. -/
def key? : Json → Option (Option String)
  | .string text => some (some text)
  | .bytes _ false => some none
  | _ => none

namespace Machine

def start (frames : List Frame) : Token → Option Machine
  | .openArray => some (.wantItem frames)
  | .openObject => some (.wantFirstKey frames)
  | .string value => some (.after value frames)
  | .literal value => some (.after value frames)
  | _ => none

def step : Machine → Token → Option Machine
  | .wantValue frames, token => start frames token
  | .wantItem frames, .closeArray => some (.after (.array []) frames)
  | .wantItem frames, token => start (.array [] :: frames) token
  | .wantFirstKey frames, .closeObject => some (.after (.object []) frames)
  | .wantFirstKey frames, .string key => (key? key).map (.wantColon [] · frames)
  | .wantKey before frames, .string key => (key? key).map (.wantColon before · frames)
  | .wantColon before key frames, .colon => some (.wantValue (.object before key :: frames))
  | .after value (.array before :: frames), .comma =>
      some (.wantValue (.array (value :: before) :: frames))
  | .after value (.array before :: frames), .closeArray =>
      some (.after (.array (value :: before).reverse) frames)
  | .after value (.object before key :: frames), .comma =>
      some (.wantKey ((key, value) :: before) frames)
  | .after value (.object before key :: frames), .closeObject =>
      some (.after (ofMembers ((key, value) :: before).reverse) frames)
  | _, _ => none

def result? : Machine → Option Json
  | .after value [] => some value
  | _ => none

end Machine

def ofTokens? (tokens : List Token) : Option Json :=
  (tokens.foldlM Machine.step (.wantValue [])).bind Machine.result?

def parse? (text : String) : Option Json :=
  (Token.ofChars? text.toList).bind ofTokens?

end DocStore.Json
