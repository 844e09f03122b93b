import FleetCompose.Proofs.Distributions

/-!
# Entries of URLs

A colon in an entry of `git` can stand in front of a branch, of a port, or of a path on a host, and
the entry is cut at the last colon only. What stands behind it is a branch unless it has a slash or
ends in `.git`. So a URL of one of the usual forms keeps all of its colons if its path can be told
from a branch, and a branch that is written behind a URL can be told from a path.
-/

namespace FleetCompose.PackageBuild

/-! ## URLs and branches -/

/-- The text ends like the name of a repository. -/
def EndsInGit (text : String) : Prop := ".git".toList <:+ text.toList

instance : DecidablePred EndsInGit :=
  fun text => inferInstanceAs (Decidable (".git".toList <:+ text.toList))

/-- A URL that names no branch, and its path. It has the form `user@host:path` without another
colon, or the form `scheme://host/path`, perhaps with a port, without a colon in the path. -/
inductive BranchlessUrl : (url path : String) → Prop where
  | scp {user host path : String} (user_ne : user ≠ "") (host_ne : host ≠ "") (path_ne : path ≠ "")
      (slash_free : '/' ∉ user.toList ∧ '/' ∉ host.toList)
      (colon_free : ':' ∉ user.toList ∧ ':' ∉ host.toList ∧ ':' ∉ path.toList) :
      BranchlessUrl (user ++ "@" ++ host ++ ":" ++ path) path
  | scheme {scheme host path : String} (colon_free : ':' ∉ path.toList) :
      BranchlessUrl (scheme ++ "://" ++ host ++ "/" ++ path) ("/" ++ path)
  | port {scheme host port path : String} (colon_free : ':' ∉ path.toList) :
      BranchlessUrl (scheme ++ "://" ++ host ++ ":" ++ port ++ "/" ++ path) ("/" ++ path)

/-- A name that is written behind a URL as its branch. -/
structure BranchName (branch : String) : Prop where
  ne_empty : branch ≠ ""
  slash_free : '/' ∉ branch.toList
  colon_free : ':' ∉ branch.toList

/-- The command that clones a URL at a branch. -/
def cloneAt (workspace branch url : String) : String :=
  "git -C " ++ workspace ++ "/src clone -b " ++ branch ++ " " ++ url

/-- The entry is a URL as a whole, which is cloned at the branch of the distribution. -/
def ClonedWhole (entry : String) : Prop :=
  ∀ distro workspace, cloneCommand entry distro workspace = cloneAt workspace distro entry

/-- With the branch behind it the URL is cloned at that branch. -/
def ClonedAt (url branch : String) : Prop :=
  ∀ distro workspace,
    cloneCommand (url ++ ":" ++ branch) distro workspace = cloneAt workspace branch url

/-! ## Entries with and without a branch -/

theorem IsBranch.clonedAt {url branch : String} (isBranch : IsBranch url branch) :
    ClonedAt url branch := by
  intro distro workspace
  rw [cloneCommand, splitBranch, isBranch.splitLast]
  dsimp only
  rw [if_pos ((isBranch_iff isBranch.colon_free).mpr isBranch)]
  rfl

theorem clonedWhole_of_not_isBranch {entry : String}
    (branchless : ∀ url branch, entry = url ++ ":" ++ branch → ¬IsBranch url branch) :
    ClonedWhole entry := by
  intro distro workspace
  have clones := clones_cloneCommand entry distro workspace
  generalize cloneCommand entry distro workspace = command at clones
  cases clones with
  | named isBranch => exact absurd isBranch (branchless _ _ rfl)
  | unnamed => rfl

/-- An end of a text without a separator belongs to what stands behind any separator. -/
theorem suffix_of_free {separator : Char} {text last path : List Char}
    (cut : separator :: last <:+ text) (ends : path <:+ text) (free : separator ∉ path) :
    path <:+ last := by
  rcases List.suffix_or_suffix_of_suffix ends cut with inLast | inPath
  · rcases List.suffix_cons_iff.mp inLast with rfl | shorter
    · exact absurd List.mem_cons_self free
    · exact shorter
  · exact absurd (inPath.subset List.mem_cons_self) free

/-- An entry is a URL as a whole if it ends in a path that cannot be a part of a branch. -/
theorem clonedWhole_of_path {entry path : String} (ends : path.toList <:+ entry.toList)
    (colon_free : ':' ∉ path.toList) (told : '/' ∈ path.toList ∨ EndsInGit path) :
    ClonedWhole entry := by
  apply clonedWhole_of_not_isBranch
  intro url branch equal isBranch
  have cut : ':' :: branch.toList <:+ entry.toList := by
    rw [equal]
    exact ⟨url.toList, by simp⟩
  have inBranch : path.toList <:+ branch.toList := suffix_of_free cut ends colon_free
  rcases told with slash | git
  · exact isBranch.slash_free (inBranch.subset slash)
  · exact isBranch.not_git (git.trans inBranch)

namespace BranchlessUrl

variable {url path : String} (branchless : BranchlessUrl url path)
include branchless

theorem path_suffix : path.toList <:+ url.toList := by
  cases branchless with
  | @scp user host => exact ⟨(user ++ "@" ++ host ++ ":").toList, by simp⟩
  | @scheme scheme host => exact ⟨(scheme ++ "://" ++ host).toList, by simp⟩
  | @port scheme host port => exact ⟨(scheme ++ "://" ++ host ++ ":" ++ port).toList, by simp⟩

theorem path_colon_free : ':' ∉ path.toList := by
  cases branchless with
  | scp _ _ _ _ colon_free => exact colon_free.2.2
  | scheme colon_free | port colon_free => simpa using colon_free

theorem ne_empty : url ≠ "" := by
  rw [← String.toList_inj.ne]
  cases branchless with
  | scp | scheme | port => simp

end BranchlessUrl

/-- A URL is cloned as a whole if its path has a slash or ends in `.git`. With a branch behind it,
it is cloned at that branch, unless the branch ends in `.git` and so counts as a part of the URL. -/
theorem cloned_of_branchlessUrl {url path : String} (branchless : BranchlessUrl url path) :
    ('/' ∈ path.toList ∨ EndsInGit path → ClonedWhole url) ∧
      ∀ branch, BranchName branch →
        (¬EndsInGit branch → ClonedAt url branch) ∧
          (EndsInGit branch → ClonedWhole (url ++ ":" ++ branch)) := by
  constructor
  · exact clonedWhole_of_path branchless.path_suffix branchless.path_colon_free
  · intro branch named
    constructor
    · intro notGit
      exact IsBranch.clonedAt {
        url_ne := branchless.ne_empty
        branch_ne := named.ne_empty
        colon_free := named.colon_free
        slash_free := named.slash_free
        not_git := notGit }
    · intro git
      have ends : branch.toList <:+ (url ++ ":" ++ branch).toList := by
        rw [String.toList_append]
        exact List.suffix_append _ _
      exact clonedWhole_of_path ends named.colon_free (.inr git)

/-- A repository on a host that is reached through a port, with and without a branch, and one in the
home directory of a user. -/
theorem driver_cloned :
    BranchlessUrl "ssh://git@lab:2222/driver" "/driver" ∧ BranchName "main" ∧
      ClonedWhole "ssh://git@lab:2222/driver" ∧ ClonedAt "ssh://git@lab:2222/driver" "main" ∧
      BranchlessUrl "git@lab:driver.git" "driver.git" ∧
      ClonedWhole "git@lab:driver.git" ∧ ClonedAt "git@lab:driver.git" "main" ∧
      ClonedWhole "git@lab:driver.git:main.git" := by
  have onPort : BranchlessUrl "ssh://git@lab:2222/driver" "/driver" :=
    @BranchlessUrl.port "ssh" "git@lab" "2222" "driver" (by decide)
  have atHome : BranchlessUrl "git@lab:driver.git" "driver.git" :=
    @BranchlessUrl.scp "git" "lab" "driver.git" (by decide) (by decide) (by decide) (by decide)
      (by decide)
  have main : BranchName "main" := ⟨by decide, by decide, by decide⟩
  have mainGit : BranchName "main.git" := ⟨by decide, by decide, by decide⟩
  have portCloned := cloned_of_branchlessUrl onPort
  have homeCloned := cloned_of_branchlessUrl atHome
  exact ⟨onPort, main, portCloned.1 (by decide), (portCloned.2 "main" main).1 (by decide), atHome,
    homeCloned.1 (by decide), (homeCloned.2 "main" main).1 (by decide),
    (homeCloned.2 "main.git" mainGit).2 (by decide)⟩

/-- Not every URL without a branch is taken as a whole, and not every branch can be written behind
every URL. -/
theorem not_forall_cloned :
    (¬∀ url path, BranchlessUrl url path → ClonedWhole url) ∧
      ¬∀ url path, BranchlessUrl url path → ∀ branch, BranchName branch → ClonedAt url branch := by
  constructor
  · intro always
    -- The path is taken for a branch.
    have atHome : BranchlessUrl "git@lab:driver" "driver" :=
      @BranchlessUrl.scp "git" "lab" "driver" (by decide) (by decide) (by decide) (by decide)
        (by decide)
    have whole := always _ _ atHome "humble" "/ws"
    exact absurd whole (by decide +kernel)
  · intro always
    -- The branch is taken for a part of the path.
    have onHost : BranchlessUrl "https://lab/driver" "/driver" :=
      @BranchlessUrl.scheme "https" "lab" "driver" (by decide)
    have named : BranchName "main.git" := ⟨by decide, by decide, by decide⟩
    have atBranch := always _ _ onHost "main.git" named "humble" "/ws"
    exact absurd atBranch (by decide +kernel)

end FleetCompose.PackageBuild
