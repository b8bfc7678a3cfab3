import CallAtlas.Java.Token

/-!
Tokens grouped by the brackets around them.
-/

namespace CallAtlas.Java

inductive TokenTree where
  | leaf (token : Token)
  | group (bracket : Char) (start : Point) (stop : Nat) (inner : List TokenTree)

namespace TokenTree

def start : TokenTree → Point
  | leaf token => token.start
  | group _ start _ _ => start

def stop : TokenTree → Nat
  | leaf token => token.stop
  | group _ _ stop _ => stop

def word? : TokenTree → Option (List Char)
  | leaf ⟨.word, text, _, _⟩ => some text
  | _ => none

def isWord (text : String) (tree : TokenTree) : Bool := tree.word? == some text.toList

def isMark (c : Char) : TokenTree → Bool
  | leaf ⟨.mark d, _, _, _⟩ => c == d
  | _ => false

def isGroup (c : Char) : TokenTree → Bool
  | group d _ _ _ => c == d
  | _ => false

end TokenTree

structure OpenBracket where
  bracket : Char
  start : Point
  before : List TokenTree

def closeAll : List TokenTree → List OpenBracket → List TokenTree
  | current, [] => current.reverse
  | current, waiting :: more =>
    let stop := (current.head?.map TokenTree.stop).getD (waiting.start.byte + 1)
    closeAll (.group waiting.bracket waiting.start stop current.reverse :: waiting.before) more

def gather : List Token → List TokenTree → List OpenBracket → List TokenTree
  | [], current, waiting => closeAll current waiting
  | token :: rest, current, waiting =>
    match token.lexeme, waiting with
    | .mark '(', _ => gather rest [] (⟨'(', token.start, current⟩ :: waiting)
    | .mark '[', _ => gather rest [] (⟨'[', token.start, current⟩ :: waiting)
    | .mark '{', _ => gather rest [] (⟨'{', token.start, current⟩ :: waiting)
    | .mark ')', opened :: more | .mark ']', opened :: more | .mark '}', opened :: more =>
      gather rest
        (.group opened.bracket opened.start token.stop current.reverse :: opened.before) more
    | _, _ => gather rest (.leaf token :: current) waiting

def tokenTrees (source : List Char) : List TokenTree := gather (tokens source) [] []

end CallAtlas.Java
