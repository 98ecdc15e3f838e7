import Lifecycle.Token

namespace Lifecycle

open Text

-- What is wrong at a place of the text.
inductive Complaint where
  -- Something else must stand here; `atEnd` if there is nothing left to read.
  | wanted (things : List String) (atEnd : Bool)
  -- A keyword stands where an identifier must stand.
  | keyword (name : String)
  -- Tokens are left over, inside brackets that `within` names.
  | leftover (within : Option Delimiter)
  -- The text has no reading as tokens.
  | noTokens
  -- A rule beyond the shape of the text is broken.
  | rule (text : String)
deriving DecidableEq, Repr

-- How a list of wanted things is worded.
def Complaint.wantedText : List String → String
  | [] => ""
  | [a] => "expected " ++ a
  | [a, b] => "expected " ++ a ++ " or " ++ b
  | things => "expected one of: " ++ ", ".intercalate things

def Complaint.message : Complaint → String
  | .wanted [] false => "unexpected token"
  | .wanted [] true => "unexpected end of input"
  | .wanted things false => wantedText things
  | .wanted things true => "unexpected end of input, " ++ wantedText things
  | .keyword name => "expected identifier, found keyword `" ++ name ++ "`"
  | .leftover none => "unexpected token"
  | .leftover (some d) => "unexpected token, expected `" ++ String.singleton d.closing ++ "`"
  | .noTokens => "cannot parse string into token stream"
  | .rule text => text

-- A complaint and its place.
structure GrammarError where
  complaint : Complaint
  pos : Position := {}
deriving DecidableEq, Repr

def GrammarError.message (e : GrammarError) : String :=
  e.complaint.message

end Lifecycle
