import CodeProfile.Language
import CodeProfile.Text.Ordered
import CodeProfile.Text.Pattern.Reader

/-!
# Signals of behaviour

What a program does to the world around it, as far as its text shows: input and output, random
choices, asking for the time, and work that runs on its own. Each signal is a pattern for some
languages. The text also names the environment variables that the program reads.
-/

namespace CodeProfile

open Text

/-- What a signal is a sign of. -/
inductive SignalKind where
  | console
  | fileSystem
  | network
  | process
  | dom
  | storage
  | random
  | clock
  | async
  deriving DecidableEq, Repr

namespace SignalKind

def isInputOutput : SignalKind → Bool
  | console | fileSystem | network | process | storage => true
  | _ => false

def isNondeterministic : SignalKind → Bool
  | random | clock => true
  | _ => false

def isSideEffect (k : SignalKind) : Bool := k.isInputOutput || k = dom

end SignalKind

/-- A pattern that is a sign of some behaviour. -/
structure Signal where
  kind : SignalKind
  /-- The languages in which it counts; none stands for all. -/
  languages : List Language
  label : String
  pattern : Pattern

/-- A signal that occurs in a text, and how often. -/
structure SignalHit where
  kind : SignalKind
  label : String
  count : Nat
  deriving DecidableEq, Repr

namespace Signal

def of (kind : SignalKind) (languages : List Language) (label pattern : String) : Signal :=
  ⟨kind, languages, label, .ofText pattern⟩

def webScript : List Language := [.javaScript, .typeScript]

def jvm : List Language := [.java, .kotlin]

def cFamily : List Language := [.c, .cpp]

/-- All signals. -/
def all : List Signal :=
  [ of .console webScript "console output" r"\bconsole\.(log|error|warn|info|debug)\s*\(",
    of .console [.python] "print" r"\bprint\s*\(",
    of .console [.python] "input" r"\binput\s*\(",
    of .console [.go] "fmt print" r"\bfmt\.(Print|Println|Printf|Scan|Scanln|Fprint\w*)\s*\(",
    of .console jvm "System.out" r"\bSystem\.(out|err)\.print",
    of .console [.rust] "print macro" r"\b(println|print|eprintln|eprint)!\s*\(",
    of .console cFamily "stdio" r"\b(printf|puts|scanf|putchar|getchar)\s*\(",
    of .console [.cpp] "iostream" r"\bstd::(cout|cerr|cin)\b|\bcout\s*<<",
    of .console [.cSharp] "Console" r"\bConsole\.(Write|WriteLine|ReadLine)\s*\(",
    of .console [.ruby] "puts" r"\b(puts|print|gets)\b",
    of .console [.php] "echo" r"\b(echo|print_r|var_dump)\b",
    of .console [.swift, .kotlin] "print" r"\bprint(ln)?\s*\(",
    of .fileSystem webScript "fs module" r"\bfs\.\w+\s*\(|\breadFileSync\b|\bwriteFileSync\b",
    of .fileSystem [.python] "open"
      r"\bopen\s*\(|\bos\.(remove|mkdir|makedirs|rename)\s*\(|\bshutil\.\w+\s*\(",
    of .fileSystem [.go] "os file" r"\bos\.(Open|Create|ReadFile|WriteFile|Remove|Mkdir\w*)\s*\(",
    of .fileSystem jvm "java io"
      r"\bnew\s+File(Reader|Writer|InputStream|OutputStream)?\s*\(|\bFiles\.\w+\s*\(",
    of .fileSystem [.rust] "std fs" r"\b(fs|std::fs)::\w+\s*\(|\bFile::(open|create)\s*\(",
    of .fileSystem cFamily "stdio file" r"\bf(open|close|read|write|printf|scanf|gets|puts)\s*\(",
    of .network webScript "fetch"
      r"\bfetch\s*\(|\baxios\.\w+\s*\(|\bXMLHttpRequest\b|\bhttp\.request\s*\(",
    of .network [.python] "requests"
      r"\brequests\.(get|post|put|delete|patch)\s*\(|\burlopen\s*\(|\bsocket\.socket\s*\(",
    of .network [.go] "net/http"
      r"\bhttp\.(Get|Post|ListenAndServe|NewRequest)\s*\(|\bnet\.(Dial|Listen)\s*\(",
    of .network jvm "http client" r"\bHttpClient\b|\bnew\s+URL\s*\(|\bnew\s+Socket\s*\(",
    of .network [.rust] "net" r"\b(TcpStream|TcpListener|UdpSocket)::\w+\s*\(|\breqwest::\w+",
    of .network [] "server listen" r"\.listen\s*\(",
    of .process webScript "process" r"\bprocess\.(exit|stdout|stdin|argv)\b|\bchild_process\b",
    of .process [.python] "process"
      r"\bsys\.(exit|argv|stdin|stdout)\b|\bsubprocess\.\w+\s*\(|\bos\.system\s*\(",
    of .process [.go] "process" r"\bos\.(Exit|Args)\b|\bexec\.Command\s*\(",
    of .process jvm "process" r"\bSystem\.exit\s*\(|\bRuntime\.getRuntime\s*\(",
    of .process [.rust] "process"
      r"\bstd::process::\w+|\bprocess::(exit|Command)\b|\benv::args\s*\(",
    of .process cFamily "process" r"\b(exit|system|fork|exec\w*)\s*\(",
    of .dom webScript "dom"
      r"\bdocument\.\w+|\bwindow\.\w+|\.innerHTML\b|\baddEventListener\s*\(",
    of .dom webScript "alert" r"\balert\s*\(",
    of .storage webScript "web storage" r"\b(localStorage|sessionStorage)\.\w+",
    of .storage [] "database" r"\.(query|execute|commit|rollback)\s*\(|\bcursor\s*\(",
    of .random webScript "Math.random" r"\bMath\.random\s*\(|\bcrypto\.randomUUID\s*\(",
    of .random [.python] "random" r"\brandom\.\w+\s*\(|\buuid\.uuid4\s*\(",
    of .random [.go] "math/rand" r"\brand\.\w+\s*\(",
    of .random jvm "Random" r"\bnew\s+Random\s*\(|\bMath\.random\s*\(|\bUUID\.randomUUID\s*\(",
    of .random [.rust] "rand" r"\brand::\w+|\bthread_rng\s*\(",
    of .random cFamily "rand" r"\bs?rand\s*\(",
    of .clock webScript "Date" r"\bDate\.now\s*\(|\bnew\s+Date\s*\(\s*\)|\bperformance\.now\s*\(",
    of .clock [.python] "time" r"\btime\.time\s*\(|\bdatetime\.(now|today|utcnow)\s*\(",
    of .clock [.go] "time.Now" r"\btime\.Now\s*\(",
    of .clock jvm "clock"
      r"\bSystem\.(currentTimeMillis|nanoTime)\s*\(|\b(LocalDateTime|Instant)\.now\s*\(",
    of .clock [.rust] "clock" r"\b(SystemTime|Instant)::now\s*\(",
    of .clock cFamily "time" r"\btime\s*\(\s*(NULL|0)?\s*\)|\bclock\s*\(\s*\)",
    of .async webScript "async/await"
      r"\basync\s+(function|\(|\w+\s*=>)|\bawait\s|\bnew\s+Promise\s*\(|\.then\s*\(",
    of .async [.python] "asyncio" r"\basync\s+def\b|\bawait\s|\basyncio\.\w+",
    of .async [.go] "goroutine" r"\bgo\s+(func\b|\w+\s*\()|\bchan\b|<-",
    of .async jvm "concurrency"
      r"\bCompletableFuture\b|\bnew\s+Thread\s*\(|\bExecutorService\b|\bsuspend\s+fun\b",
    of .async [.rust] "async" r"\basync\s+(fn|move|\x7b)|\.await\b|\bthread::spawn\s*\(",
    of .async [.cSharp] "async" r"\basync\s+Task\b|\bawait\s"]

def appliesTo (s : Signal) (l : Language) : Bool := s.languages.isEmpty || s.languages.contains l

/-- The signals that occur in a text, in the order of the table. -/
def scan (source : String) (l : Language) : List SignalHit :=
  ((all.filter (·.appliesTo l)).map fun s => ⟨s.kind, s.label, s.pattern.count source⟩).filter
    (0 < ·.count)

/-- Ways to read an environment variable; the first group is its name. -/
def environmentReads : List Pattern :=
  [ r"\bprocess\.env\.([A-Za-z_][A-Za-z0-9_]*)",
    r#"\bprocess\.env\[\s*['"]([A-Za-z_][A-Za-z0-9_]*)['"]"#,
    r#"\bos\.environ\s*\[\s*['"]([A-Za-z_][A-Za-z0-9_]*)['"]"#,
    r#"\bos\.(?:environ\.get|getenv)\s*\(\s*['"]([A-Za-z_][A-Za-z0-9_]*)['"]"#,
    r#"\bos\.(?:Getenv|LookupEnv)\s*\(\s*"([A-Za-z_][A-Za-z0-9_]*)""#,
    r#"\benv::var(?:_os)?\s*\(\s*"([A-Za-z_][A-Za-z0-9_]*)""#,
    r#"\bSystem\.getenv\s*\(\s*"([A-Za-z_][A-Za-z0-9_]*)""#,
    r#"\bgetenv\s*\(\s*"([A-Za-z_][A-Za-z0-9_]*)""#,
    r#"\bENV\s*\[\s*['"]([A-Za-z_][A-Za-z0-9_]*)['"]"#].map .ofText

/-- The environment variables that a text reads, in order of first mention. -/
def environmentVariables (source : String) : List String :=
  let found := environmentReads.flatMap fun p =>
    (p.matchesIn source).filterMap (·.groupMatch? 1)
  let sorted := found.mergeSort fun a b =>
    b.left < a.left || a.left == b.left && a.text ≤ b.text
  distinct (sorted.map (·.text))

end Signal

/-- How often side effects occur. -/
def sideEffectCount (hits : List SignalHit) : Nat :=
  Number.total ((hits.filter (·.kind.isSideEffect)).map (·.count))

end CodeProfile
