import PRoot.Proc

/-!
# Canonicalization and translation

`path/glue.c`, `canonicalize` of `path/canon.c` and `translate_path` of
`path/path.c`.  The recursion of `canonicalize` is bounded by fuel; running out
of it is `none`.  Besides its result a run yields a log of what it went
through, which the source does not keep: it lets statements speak about the
invocations, the lookups and the links of a run.
-/

namespace PRoot

variable {W : Type}

/-! ## `glue.c` -/

/-- The end of `build_glue`, the label `create_binding`. -/
def createBinding (sys : Sys W) (glue guestPath : CStr) (type : FileType) :
    Sys W × Option FileType :=
  if glue.length ≥ pathMax ∨ guestPath.length ≥ pathMax then (sys, none)
  else (sys.insortBinding3 glue guestPath, some type)

/-- The `mkdir` or `mknod` of `build_glue`. -/
def makeComponent (k : Kernel W) (world : W) (hostPath : CStr) (type : FileType) (mode : Nat) :
    W × Except Errno Unit :=
  if type = .dir then k.mkdir world hostPath mode else k.mknod world hostPath mode type

/-- What `build_glue` does after trying to create the component. -/
def afterMake (sys : Sys W) (glue guestPath : CStr) (type : FileType) (finality : Finality)
    (belongsToGluefs : Bool) (status : Except Errno Unit) : Sys W × Option FileType :=
  if status = .ok () ∨ status = .error .EEXIST ∨ finality.isFinal then (sys, some type)
  else if belongsToGluefs then (sys, none)
  else createBinding sys glue guestPath type

/-- `build_glue`, once there is a directory for the glue. -/
def buildGlueIn (k : Kernel W) (sys : Sys W) (glue : CStr) (glueType : FileType)
    (guestPath hostPath : CStr) (finality : Finality) : Sys W × Option FileType :=
  let belongsToGluefs := (comparePaths glue hostPath).contains
  let type := if finality.isFinal then glueType else .dir
  let mode := if finality.isFinal ∧ ¬ belongsToGluefs then 0 else 0o777
  if k.dontPolluteRootfs ∧ ¬ belongsToGluefs then createBinding sys glue guestPath type
  else
    let made := makeComponent k sys.world hostPath type mode
    afterMake { sys with world := made.1 } glue guestPath type finality belongsToGluefs made.2

/-- `build_glue`: the type of the bound path, or nothing on an error. -/
def buildGlue (k : Kernel W) (sys : Sys W) (glueType : FileType) (guestPath hostPath : CStr)
    (finality : Finality) : Sys W × Option FileType :=
  match sys.tracee.glue with
  | some glue => buildGlueIn k sys glue glueType guestPath hostPath finality
  | none =>
      match k.createTempDirectory sys.world "proot".toList with
      | (world, none) => ({ sys with world }, none)
      | (world, some glue) =>
          buildGlueIn k { sys with world, tracee := { sys.tracee with glue := some glue } }
            glue glueType guestPath hostPath finality

/-! ## `canon.c` -/

/-- The `lstat` of `substitute_binding_stat`: a directory Android denies to look
at counts as one, and names hidden by the f2fs bug do not exist. -/
def statHost (k : Kernel W) (world : W) (hostPath : CStr) : Except Errno FileType :=
  if shouldSkipFileAccess k world hostPath then .error .ENOENT
  else
    match k.lstat world hostPath with
    | .error .EACCES =>
        if hostPath = "/linkerconfig".toList then .ok .dir else .error .EACCES
    | status => status

/-- The end of `substitute_binding_stat`: a component in the middle has to be
a directory or a link.  The answer tells whether it is a link. -/
def checkType (finality : Finality) (failed : Bool) (type : Option FileType) :
    Except Errno Bool :=
  if ¬ finality.isFinal ∧ type ≠ some .dir ∧ type ≠ some .lnk then
    .error (if failed then .ENOENT else .ENOTDIR)
  else .ok (type = some .lnk)

/-- `substitute_binding_stat`: whether the path is a link, and its host path. -/
def substituteBindingStat (k : Kernel W) (sys : Sys W) (finality : Finality) (guestPath : CStr) :
    Sys W × Except Errno (Bool × CStr) :=
  match substituteBinding sys.bindings .guest guestPath with
  | (_, .error e) => (sys, .error e)
  | (hostPath, .ok _) =>
      match statHost k sys.world hostPath, sys.tracee.glueType with
      | .ok type, _ => (sys, (checkType finality false (some type)).map (·, hostPath))
      | .error _, none => (sys, (checkType finality true none).map (·, hostPath))
      | .error _, some glueType =>
          let (sys, type) := buildGlue k sys glueType guestPath hostPath finality
          (sys, (checkType finality true type).map (·, hostPath))

/-- What a link reads as: a text to canonicalize, or a path at which
canonicalization ends. -/
inductive LinkText
  | text (text : CStr)
  | stop (path : CStr)
  deriving DecidableEq, Repr

/-- The text of a link on the host, seen from the guest. -/
def readHostLink (k : Kernel W) (sys : Sys W) (hostPath : CStr) : Except Errno LinkText :=
  match k.readlink sys.world hostPath with
  | .error _ => .error .EPERM
  | .ok text =>
      if text.length ≥ pathMax then .error .ENAMETOOLONG
      else (detranslatePath sys text (some hostPath)).map fun (text, _) => .text text

/-- Whether the directory of a link is /proc, and under which name: its own one,
or the one it has on the host. -/
def procBase (sys : Sys W) (guestPath : CStr) : Comparison × CStr :=
  let comparison := comparePaths procPath guestPath
  if comparison.contains then (comparison, guestPath)
  else
    let aliasBase := (substituteBinding sys.bindings .guest guestPath).1
    if aliasBase ≠ guestPath then (comparePaths procPath aliasBase, aliasBase)
    else (comparison, guestPath)

/-- The text of the link `component` in `guestPath`. -/
def linkText (k : Kernel W) (sys : Sys W) (finality : Finality)
    (guestPath component hostPath : CStr) : Except Errno LinkText :=
  let (comparison, base) := procBase sys guestPath
  if comparison.contains then
    match readlinkProc sys base component comparison with
    | .error e => .error e
    | .ok (.canonicalize text) => .ok (.text text)
    | .ok (.dontCanonicalize path) =>
        -- only if very final, otherwise it is a link like any other
        if finality = .finalNormal then .ok (.stop path) else readHostLink k sys hostPath
    | .ok .default => readHostLink k sys hostPath
  else readHostLink k sys hostPath

/-- What one pass of the loop of `canonicalize` comes to. -/
inductive Pass
  | fail (e : Errno)
  | next (finality : Finality) (cursor guestPath : CStr)
  | stop (path : CStr)
  | follow (finality : Finality) (cursor component text : CStr)
  deriving DecidableEq, Repr

/-- Go down to a component that is no link, or not to be followed. -/
def enterComponent (finality : Finality) (cursor guestPath component : CStr) : Pass :=
  match joinPaths [guestPath, component] with
  | .error e => .fail e
  | .ok guestPath => .next finality cursor guestPath

/-- The pass for an ordinary component. -/
def passComponent (k : Kernel W) (sys : Sys W) (derefFinal : Bool) (finality : Finality)
    (cursor guestPath component scratchPath : CStr) : Sys W × Pass :=
  match substituteBindingStat k sys finality scratchPath with
  | (sys, .error e) => (sys, .fail e)
  | (sys, .ok (isLink, hostPath)) =>
      if ¬ isLink ∨ (finality = .finalNormal ∧ ¬ derefFinal) then
        (sys, enterComponent finality cursor guestPath component)
      else
        match linkText k sys finality guestPath component hostPath with
        | .error e => (sys, .fail e)
        | .ok (.stop path) => (sys, .stop path)
        | .ok (.text text) => (sys, .follow finality cursor component text)

/-- What a run of `canonicalize` goes through.  `follow` is the `count`-th link
an invocation follows, `component` in `base`; `stop` is the end at a link of
/proc that is not followed; an invocation leaves with an error or without. -/
inductive Event
  | enter (level : Nat)
  | look (guestPath : CStr)
  | follow (level count : Nat) (base component : CStr)
  | stop (level : Nat) (path : CStr)
  | leave (level : Nat) (status : Option Errno)
  deriving DecidableEq, Repr

/-- One pass of the loop of `canonicalize`, up to the recursion. -/
def pass (k : Kernel W) (sys : Sys W) (derefFinal : Bool) (guestPath cursor : CStr) :
    Sys W × List Event × Pass :=
  match nextComponent cursor with
  | .error e => (sys, [], .fail e)
  | .ok (component, finality, cursor) =>
      if component = ['.'] then
        (sys, [], .next (if finality.isFinal then .finalDot else finality) cursor guestPath)
      else if component = ['.', '.'] then
        (sys, [], .next (if finality.isFinal then .finalSlash else finality) cursor
          (popComponent guestPath))
      else
        match joinPaths [guestPath, component] with
        | .error e => (sys, [], .fail e)
        | .ok scratchPath =>
            let (sys, result) :=
              passComponent k sys derefFinal finality cursor guestPath component scratchPath
            (sys, [.look scratchPath], result)

/-- What a run leaves behind: the state, its log, and what it returns. -/
structure Outcome (W : Type) where
  sys : Sys W
  log : List Event
  result : Except Errno CStr

/-- Put events in front of the log of a run. -/
def Outcome.after (log : List Event) (outcome : Outcome W) : Outcome W :=
  { outcome with log := log ++ outcome.log }

/-- An invocation returns. -/
def leave (sys : Sys W) (log : List Event) (level : Nat) (result : Except Errno CStr) :
    Outcome W where
  sys := sys
  log := log ++ [.leave level (match result with | .ok _ => none | .error e => some e)]
  result := result

/-- The end of `canonicalize`: at the first level a final '/' or '.' is put
back. -/
def exitStage (level : Nat) (finality : Finality) (guestPath : CStr) : Except Errno CStr :=
  if level = 0 then
    match finality with
    | .finalSlash => joinPaths [guestPath, []]
    | .finalDot => joinPaths [guestPath, ['.']]
    | _ => .ok guestPath
  else .ok guestPath

/-- The start of `canonicalize`: the guest path to begin with. -/
def enterStage (k : Kernel W) (userPath guestPath : CStr) (level : Nat) : Except Errno CStr :=
  if level > k.maxSymlinks then .error .ELOOP
  else if guestPath.length ≥ pathMax then .error .ENAMETOOLONG
  else if userPath.head? ≠ some '/' then
    if guestPath.head? ≠ some '/' then .error .EINVAL else .ok guestPath
  else .ok slash

/-- The variables of an invocation of `canonicalize`. -/
structure Frame where
  derefFinal : Bool
  level : Nat
  symlinksFollowed : Nat
  guestPath : CStr
  cursor : CStr
  finality : Finality
  deriving DecidableEq, Repr

/-- The variables at the beginning of an invocation. -/
def Frame.start (derefFinal : Bool) (level : Nat) (guestPath userPath : CStr) : Frame :=
  ⟨derefFinal, level, 0, guestPath, userPath, .notFinal⟩

/-- The loop of `canonicalize`, from any of its turns on. -/
def canonLoop (k : Kernel W) : Nat → Sys W → Frame → Option (Outcome W)
  | 0, _, _ => none
  | fuel + 1, sys, f =>
      if f.finality.isFinal then
        some (leave sys [] f.level (exitStage f.level f.finality f.guestPath))
      else
        match pass k sys f.derefFinal f.guestPath f.cursor with
        | (sys, log, .fail e) => some (leave sys log f.level (.error e))
        | (sys, log, .stop path) =>
            some (leave sys (log ++ [.stop f.level path]) f.level (.ok path))
        | (sys, log, .next finality cursor guestPath) =>
            (canonLoop k fuel sys { f with finality, cursor, guestPath }).map (·.after log)
        | (sys, log, .follow finality cursor component text) =>
            let count := f.symlinksFollowed + 1
            let level := f.level + count
            let log := log ++ [.follow f.level count f.guestPath component, .enter level]
            let nested :=
              match enterStage k text f.guestPath level with
              | .error e => some (leave sys [] level (.error e))
              | .ok guestPath => canonLoop k fuel sys (.start true level guestPath text)
            nested.bind fun outcome =>
              let log := log ++ outcome.log
              match outcome.result with
              | .error e => some (leave outcome.sys log f.level (.error e))
              | .ok guestPath =>
                  if guestPath = f.guestPath then
                    some (leave outcome.sys log f.level (.error .ELOOP))
                  else
                    let log := log ++ [.look guestPath]
                    match substituteBindingStat k outcome.sys finality guestPath with
                    | (sys, .error e) => some (leave sys log f.level (.error e))
                    | (sys, .ok _) =>
                        (canonLoop k fuel sys
                          { f with symlinksFollowed := count, finality, cursor, guestPath }).map
                          (·.after log)

/-- `canonicalize`. -/
def canonicalize (k : Kernel W) (fuel : Nat) (sys : Sys W) (userPath : CStr) (derefFinal : Bool)
    (guestPath : CStr) (level : Nat) : Option (Outcome W) :=
  match enterStage k userPath guestPath level with
  | .error e => some (leave sys [.enter level] level (.error e))
  | .ok guestPath =>
      (canonLoop k fuel sys (.start derefFinal level guestPath userPath)).map
        (·.after [.enter level])

/-! ## `translate_path` -/

/-- `AT_FDCWD`. -/
def atFdCwd : Int := -100

/-- `readlink_proc_pid_fd`. -/
def readlinkProcPidFdOf (k : Kernel W) (world : W) (pid fd : Int) : Except Errno CStr :=
  match k.readlink world (procPidFdPath pid ++ '/' :: formatInt fd) with
  | .error _ => .error .EBADF
  | .ok text => if text.length ≥ pathMax then .error .ENAMETOOLONG else .ok text

/-- `getcwd2`, for a tracee. -/
def getcwd2 (sys : Sys W) : Except Errno CStr :=
  if sys.cwd.length ≥ pathMax then .error .ENAMETOOLONG else .ok sys.cwd

/-- The base `translate_path` starts from. -/
def translateBase (k : Kernel W) (sys : Sys W) (dirFd : Int) (userPath : CStr) :
    Except Errno CStr :=
  if userPath.head? = some '/' then .ok slash
  else if dirFd ≠ atFdCwd then do
    let result ← readlinkProcPidFdOf k sys.world sys.tracee.pid dirFd
    if result.head? ≠ some '/' then .error .ENOTDIR
    else
      let (result, _) ← detranslatePath sys result none
      .ok result
  else getcwd2 sys

/-- `translate_path`, with no extension. -/
def translatePath (k : Kernel W) (fuel : Nat) (sys : Sys W) (dirFd : Int) (userPath : CStr)
    (derefFinal : Bool) : Option (Outcome W) :=
  match translateBase k sys dirFd userPath >>= fun base => joinPaths [base, userPath] with
  | .error e => some ⟨sys, [], .error e⟩
  | .ok guestPath =>
      (canonicalize k fuel sys guestPath derefFinal slash 0).map fun outcome =>
        match outcome.result with
        | .error _ => outcome
        | .ok guestPath =>
            match substituteBinding outcome.sys.bindings .guest guestPath with
            | (_, .error e) => { outcome with result := .error e }
            | (hostPath, .ok _) => { outcome with result := .ok hostPath }

end PRoot
