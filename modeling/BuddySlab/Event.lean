import BuddySlab.Fault

/-!
What is written to the console, one event a line. An event carries the numbers that its line shows,
always in hexadecimal; its level decides whether a console keeps it.
-/

namespace BuddySlab

inductive Level
  | error
  | warn
  | info
  | debug
  | trace
  deriving DecidableEq, Repr

namespace Level

def rank : Level → Nat
  | .error => 0
  | .warn => 1
  | .info => 2
  | .debug => 3
  | .trace => 4

def label : Level → String
  | .error => "ERROR"
  | .warn => "WARN"
  | .info => "INFO"
  | .debug => "DEBUG"
  | .trace => "TRACE"

end Level

inductive Event
  | poolOpening (start : Nat)
  | tablePlaced (address : Nat)
  | payloadPlaced (address : Nat)
  | payloadCounted (pages : Nat)
  | buddyOpening (pages : Nat)
  | buddyReady (blocks : Nat)
  | orderListed (order : Nat)
  | blockListed (start stop : Nat)
  | poolReady
  | slabCreated (page objectSize : Nat)
  | granted (size address : Nat)
  | exhausted (size : Nat)
  | objectReleased (address : Nat)
  | blockReleased (order address : Nat)
  | orderCounted (order blocks : Nat)
  | heapNotReady (size : Nat)
  | bannerRule
  | bannerTitle
  | bannerCause (cause : Violation)
  | bannerValue (value : Nat)
  | suiteStarted
  | suiteNamed (name : String)
  | casePassed (name : String)
  | caseFailed (name : String)
  | caseSkipped
  | skippedNamed (name : String)
  | passedCounted (count : Nat)
  | failedCounted (count : Nat)
  | selfTestStarted
  | selfTestPassed
  | selfTestFailed
  | misalignedBlock (address : Nat)
  | noBlockOfOrder (order : Nat)
  | countsChanged
  | wrongClass (size : Nat)
  | unflaggedPage (address : Nat)
  | blockInUse (address : Nat)
  deriving DecidableEq, Repr

namespace Event

def level : Event → Level
  | .poolOpening _ | .buddyOpening _ | .buddyReady _ | .poolReady => .info
  | .tablePlaced _ | .payloadPlaced _ | .payloadCounted _ => .debug
  | .orderListed _ | .blockListed .. | .slabCreated .. => .trace
  | .granted .. | .objectReleased _ | .blockReleased .. | .orderCounted .. => .trace
  | .exhausted _ => .warn
  | .heapNotReady _ => .error
  | .bannerRule | .bannerTitle | .bannerCause _ | .bannerValue _ => .error
  | .suiteStarted | .suiteNamed _ | .casePassed _ | .passedCounted _ => .info
  | .caseSkipped | .skippedNamed _ => .warn
  | .caseFailed _ | .failedCounted _ => .error
  | .selfTestStarted | .selfTestPassed => .info
  | .selfTestFailed => .error
  | .noBlockOfOrder _ => .warn
  | .misalignedBlock _ | .countsChanged | .wrongClass _ | .unflaggedPage _ => .error
  | .blockInUse _ => .error

def text : Event → String
  | .poolOpening start => "(PMM) Inicializando faixa em=" ++ hex start
  | .tablePlaced address => "(Arena) tabela em=" ++ hex address
  | .payloadPlaced address => "(Arena) payload em=" ++ hex address
  | .payloadCounted pages => "(Arena) páginas=" ++ hex pages
  | .buddyOpening pages => "(Buddy) Inicializando... páginas=" ++ hex pages
  | .buddyReady blocks => "(Buddy) blocos livres=" ++ hex blocks
  | .orderListed order => "(Buddy) ordem=" ++ hex order
  | .blockListed start stop => "(Buddy)   bloco=" ++ hex start ++ " fim=" ++ hex stop
  | .poolReady => "[OK] (PMM) Buddy + Slab prontos"
  | .slabCreated page objectSize =>
      "(Slab) novo slab=" ++ hex page ++ " obj_size=" ++ hex objectSize
  | .granted size address => "(PMM) alloc size=" ++ hex size ++ " addr=" ++ hex address
  | .exhausted size => "(PMM) OOM, size=" ++ hex size
  | .objectReleased address => "(PMM) free slab obj=" ++ hex address
  | .blockReleased order address => "(PMM) free ordem=" ++ hex order ++ " addr=" ++ hex address
  | .orderCounted order blocks => "(PMM) ordem=" ++ hex order ++ " livres=" ++ hex blocks
  | .heapNotReady size => "(Heap) alloc antes do init, size=" ++ hex size
  | .bannerRule => "*****************************************************"
  | .bannerTitle => "*                  PMM FATAL ERROR                  *"
  | .bannerCause cause => cause.text
  | .bannerValue value => "valor=" ++ hex value
  | .suiteStarted => "=== Executando suite:"
  | .suiteNamed name => name
  | .casePassed name => "[OK] " ++ name
  | .caseFailed name => "[FAIL] " ++ name
  | .caseSkipped => "[SKIP]"
  | .skippedNamed name => name
  | .passedCounted count => "Resultados: passed=" ++ hex count
  | .failedCounted count => "Resultados: failed=" ++ hex count
  | .selfTestStarted => "(SelfTest) Iniciando testes de memória..."
  | .selfTestPassed => "[OK] (SelfTest) Memória OK"
  | .selfTestFailed => "[FAIL] (SelfTest) Falhas na memória"
  | .misalignedBlock address => "(BuddyTest) bloco desalinhado=" ++ hex address
  | .noBlockOfOrder order => "(BuddyTest) sem memória na ordem=" ++ hex order
  | .countsChanged => "(BuddyTest) contagens mudaram após round trip"
  | .wrongClass size => "(SlabTest) classe incorreta, size=" ++ hex size
  | .unflaggedPage address => "(SlabTest) página sem flag SLAB=" ++ hex address
  | .blockInUse address => "(PMMTest) bloco já em uso=" ++ hex address

def line (e : Event) : String :=
  e.level.label ++ " " ++ e.text

end Event
end BuddySlab
