import Manifest.Dispatch.Standard
import Manifest.Document.Reading
import Manifest.Failure
import Manifest.Files

/-!
# Loading a document

`interpret` takes a text through its three stages: it is cut into tokens, the tokens are read as a
document, and the document is evaluated. The first stage that fails decides the fault. `load` turns
the faults of the pipeline into a failure with an excerpt of the text; other faults stay faults.
Both leave the dispatch state as the functions left it, and a log of the stages.
-/

namespace Manifest

/-- What the log notes. -/
inductive Event
  | scanned (tokens : Nat)
  | read (entries : Nat)
  | called (dispatch : Dispatch)
  | evaluated (records : Nat)
  | failed (fault : Fault)

/-- What the log says. -/
def Event.message : Event → String
  | scanned tokens => s!"Lexed {tokens} tokens"
  | read entries => s!"Parsed {entries} top-level entries"
  | called dispatch => dispatch.message
  | evaluated records => s!"Evaluated to {records} top-level records"
  | failed fault => "Load failed: " ++ fault.message

/-- The end of an interpretation or of a load. -/
structure Interpreted (F M α : Type) where
  outcome : Except Fault α
  state : DispatchState F M
  log : List Event

namespace DispatchState

variable {F M : Type}

/-- Scan, read and evaluate a text. -/
def interpret (state : DispatchState F M) (host : Host F M) (source : String) :
    Interpreted F M Value :=
  match Token.scan source with
  | .error fault => ⟨.error (.document (.lex fault)), state, []⟩
  | .ok tokens =>
    let scanned := Event.scanned tokens.length
    match Document.ofTokens tokens with
    | .error fault => ⟨.error (.document fault), state, [scanned]⟩
    | .ok document =>
      let read := Event.read document.entries.length
      let evaluated := state.evaluate host (.value document)
      let calls := evaluated.trace.map Event.called
      match evaluated.outcome with
      | .error fault => ⟨.error fault, evaluated.state, scanned :: read :: calls⟩
      | .ok v =>
        ⟨.ok v, evaluated.state, scanned :: read :: (calls ++ [.evaluated v.entries.length])⟩

/-- Interpret a text and report a fault of the pipeline as a failure. -/
def load (state : DispatchState F M) (host : Host F M) (source : String) :
    Interpreted F M Loaded :=
  let interpreted := state.interpret host source
  match interpreted.outcome with
  | .ok v => ⟨.ok (.ok v), interpreted.state, interpreted.log⟩
  | .error fault =>
    if fault.isOwn then
      ⟨(Failure.ofFault fault (some source)).map .error, interpreted.state,
        interpreted.log ++ [.failed fault]⟩
    else ⟨.error fault, interpreted.state, interpreted.log⟩

/-- Load the document of a file, which must be there and hold text. -/
def loadFile (state : DispatchState F M) (host : Host F M) (files : Files) (path : String) :
    Except FileFault (Interpreted F M Loaded) :=
  (files.readText path).map (state.load host)

end DispatchState
end Manifest
