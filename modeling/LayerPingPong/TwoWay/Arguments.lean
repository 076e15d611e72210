import LayerPingPong.TwoWay.Exchange

/-!
# The command line

`get_params` reads its own long options with `getopt_long` and hands a window of the command line on
to `rttest_read_args`. The window starts two tokens before the first one that was not scanned. That
is one token before the last one scanned, so an option that was skipped earlier is lost.
-/

namespace LayerPingPong.TwoWay

structure Params where
  rt : RtParams
  layer : String
  type : String
  side : String
  pingHistFilename : String
  pingTopnFilename : String
  pingTimeseriesFilename : String
  pongHistFilename : String
  pongTopnFilename : String
  pongTimeseriesFilename : String
  deriving DecidableEq, Repr

/-- The strings are empty at first; `rt` is assigned at the end. -/
instance : Inhabited Params := ⟨⟨⟨0, 0⟩, "", "", "", "", "", "", "", "", ""⟩⟩

/-- The long options, all with a required argument, and what `getopt_long` returns for them. -/
def longopts : List (String × Char) :=
  [("layer", 'l'), ("type", 'p'), ("side", 's'), ("ping_hist_filename", 'h'),
    ("ping_topn_filename", 'n'), ("ping_timeseries_filename", 't'), ("pong_hist_filename", 'i'),
    ("pong_topn_filename", 'o'), ("pong_timeseries_filename", 'u')]

/-- The `switch` in the loop of `get_params`. -/
def Params.assign (params : Params) (c : Char) (optarg : String) : Params :=
  match c with
  | 'p' => { params with type := optarg }
  | 's' => { params with side := optarg }
  | 'l' => { params with layer := optarg }
  | 'h' => { params with pingHistFilename := optarg }
  | 'n' => { params with pingTopnFilename := optarg }
  | 't' => { params with pingTimeseriesFilename := optarg }
  | 'i' => { params with pongHistFilename := optarg }
  | 'o' => { params with pongTopnFilename := optarg }
  | 'u' => { params with pongTimeseriesFilename := optarg }
  | _ => params

/-! ## `getopt_long` with the option string `"+"` -/

inductive TokenKind where
  | operand
  | terminator
  | unlisted
  | listed (c : Char) (attached : Option String)
  deriving DecidableEq, Repr

/-- A long option is named in full or by a prefix that no other one has. -/
def findLongopt (name : List Char) : Option Char :=
  match longopts.find? fun option ↦ option.1.toList = name with
  | some option => some option.2
  | none =>
    match longopts.filter fun option ↦ name.isPrefixOf option.1.toList with
    | [option] => some option.2
    | _ => none

def classify (token : String) : TokenKind :=
  match token.toList with
  | ['-', '-'] => .terminator
  | '-' :: '-' :: text =>
    let name := text.takeWhile (· ≠ '=')
    match findLongopt name with
    | some c =>
      .listed c (if '=' ∈ text then some (String.ofList (text.drop (name.length + 1))) else none)
    | none => .unlisted
  | '-' :: _ :: _ => .unlisted
  | _ => .operand

/-- What the scan does next: it returns a listed option with the tokens that it has consumed, or
returns `'?'` and skips a token, or steps over `"--"`, which ends it. -/
inductive Step where
  | option (c : Char) (optarg : String) (tokens : List String)
  | unknown (token : String)
  | terminator
  deriving DecidableEq, Repr

def Step.tokens : Step → List String
  | .option _ _ tokens => tokens
  | .unknown token => [token]
  | .terminator => ["--"]

/-- The scan of the tokens after the program name, and the tokens it leaves. -/
def scan : List String → List Step × List String
  | [] => ([], [])
  | token :: rest =>
    match classify token with
    | .operand => ([], token :: rest)
    | .terminator => ([.terminator], rest)
    | .unlisted => ((.unknown token :: (scan rest).1), (scan rest).2)
    | .listed c (some optarg) => (.option c optarg [token] :: (scan rest).1, (scan rest).2)
    | .listed c none =>
      match rest with
      -- the required argument is missing
      | [] => ([.unknown token], [])
      | optarg :: rest => (.option c optarg [token, optarg] :: (scan rest).1, (scan rest).2)

/-! ## `get_params` -/

def Params.apply (params : Params) : Step → Params
  | .option c optarg _ => params.assign c optarg
  | .unknown _ | .terminator => params

def scanned (argv : List String) : List Step := (scan argv.tail).1

def optind (argv : List String) : ℕ := 1 + ((scanned argv).flatMap Step.tokens).length

/-- The arguments of `rttest_read_args`: a pointer into `argv` and a number of tokens. -/
structure Window where
  start : ℤ
  length : ℤ
  deriving DecidableEq, Repr

def window (argv : List String) : Window where
  start := optind argv - 2
  length := argv.length - (optind argv - 2)

/-- `readArgs` stands for `rttest_read_args` and `rttest_get_params`. -/
def getParams (readArgs : List String → Window → RtParams) (argv : List String) : Params :=
  { (scanned argv).foldl Params.apply default with rt := readArgs argv (window argv) }

end LayerPingPong.TwoWay
