import Byoh.Foundation.Shell
import Byoh.Model.Installer

/-!
# The install and the uninstall script

`installer/internal/algo/ubuntu-templates`: the scripts that the agent runs on its host, as scripts
over the commands that occur in them. Each statement stands next to its lines of the template, and
the lines together are the template (`installStatements_segments`, `uninstallStatements_segments`).

A `Host` is what the commands of the scripts read and write on it:

* the lines of `/etc/fstab`, and the devices in use for swap;
* the firewall, and the file `/var/lib/byoh/ufw-state` in which the install script keeps its state;
* the Debian packages, the kernel modules, the containerd service;
* the files of `$BUNDLE_PATH`, the paths of all other regular files, and the lines that the install
  script writes to one of them, `/etc/containerd/config.toml`.

Every command may fail or be cut off, with a part of its effect. Directories, file contents other than
those above and the output of the commands are left out. The names in a tar archive are free of the
characters that `xargs` treats in a special way.
-/

set_option autoImplicit false

namespace Byoh.Model.InstallScripts

open Byoh.Foundation Byoh.Foundation.Shell

/-! ## The bundle -/

/-- The archives of a bundle. -/
inductive Tar where
  | conf
  | containerd
  deriving DecidableEq, Repr

def Tar.file : Tar → String
  | .conf => "conf.tar"
  | .containerd => "containerd.tar"

/-- A character that `xargs` takes as it is. -/
def isPlain (c : Char) : Bool := !Text.isSpace c && c ≠ '"' && c ≠ '\'' && c ≠ '\\'

/-- A bundle: the files of the image, what `tar tf` lists for the archives, the output of
`containerd config default`, and whether the installer sets the systemd cgroup driver; and from the
package archive of the host, what `apt-get install` brings along with a package. -/
structure Bundle where
  image : List String
  entries : Tar → List String
  plain : ∀ tar, ∀ entry ∈ entries tar, entry.toList.all isPlain = true
  defaultConfig : List (List Char)
  systemdCgroup : Bool
  dependencies : String → List String

/-- `grep -e '[^/]$'`: the entry is not a directory. -/
def isFile (entry : String) : Bool := entry.toList.getLast?.any (· ≠ '/')

/-- The path of an entry: `tar -C /` puts it there, and `echo '/'` with the blank removed prints it. -/
def entryPath (entry : String) : String := Text.cleanPath ("/" ++ entry)

/-- The paths of the regular files in an archive. -/
def Bundle.paths (b : Bundle) (tar : Tar) : List String :=
  ((b.entries tar).filter isFile).map entryPath

/-! ## Commands -/

/-- The simple commands of the scripts; a pipeline is one of them. `ufwStatusActive` is
`ufw status | grep -q "Status: active"`, `commentSwap` and `uncommentSwap` are the `sed` on
`/etc/fstab`, `removeEntries` is the pipeline from `tar tf` to `xargs rm -f`, and `containerdConfig`
is the line that the installer fills in. -/
inductive Command where
  | commandV (name : String)
  | echo (text : String)
  | true'
  | setDlBin (value : String)
  | aptGetInstall (pkg : String)
  | downloadImgpkg
  | mvImgpkg
  | chmodImgpkg
  | mkdir (path : String)
  | imgpkgPull
  | swapoff
  | swapon
  | commentSwap
  | uncommentSwap
  | testNoUfwState
  | testUfwState
  | ufwStatusActive
  | writeUfwState (value : String)
  | grepUfwState
  | rmUfwState
  | ufwDisable
  | ufwEnable
  | modprobe (name : String)
  | modprobeRemove (options name : String)
  | extract (tar : Tar)
  | testTar (tar : Tar)
  | removeEntries (tar : Tar)
  | sysctlSystem
  | dpkgInstall (pkg : String)
  | aptMarkHold (pkg : String)
  | dpkgList (pkg : String)
  | dpkgPurge (pkg : String)
  | containerdConfigDefault
  | containerdConfig
  | enableCri
  | daemonReload
  | enableContainerd
  | restartContainerd
  | stopContainerd
  | disableContainerd
  | rmDirectory (path : String)
  | rmBundle
  deriving DecidableEq, Repr

/-! ## Lines of files -/

/-- `\s`. -/
def isBlank (c : Char) : Bool := c = ' ' || (9 ≤ c.toNat && c.toNat ≤ 13)

/-- The text begins with a match of `\sswap\s`. -/
def startsWithSwap : List Char → Bool
  | c :: 's' :: 'w' :: 'a' :: 'p' :: d :: _ => isBlank c && isBlank d
  | _ => false

/-- `/\sswap\s/`. -/
def isSwapLine (line : List Char) : Bool := line.tails.any startsWithSwap

/-- What `^#?` leaves of a line. -/
def dropHash : List Char → List Char
  | '#' :: rest => rest
  | line => line

/-- `/\sswap\s/s/^#?/#/`. -/
def commentSwapLine (line : List Char) : List Char :=
  if isSwapLine line then '#' :: dropHash line else line

/-- `/\sswap\s/s/^#?//`. -/
def uncommentSwapLine (line : List Char) : List Char :=
  if isSwapLine line then dropHash line else line

/-- The fields of a line of `/etc/fstab`. -/
def fields (line : List Char) : List (List Char) :=
  (line.splitOnP fun c => c = ' ' || c = '\t').filter (· ≠ [])

/-- The device that `swapon -a` takes from a line of `/etc/fstab`, if there is one. -/
def swapEntry (line : List Char) : Option (List Char) :=
  match fields line with
  | device :: _ :: kind :: options =>
      if device.head? ≠ some '#' ∧ kind = "swap".toList ∧
          "noauto".toList ∉ (options.headD []).splitOn ',' then some device
      else none
  | _ => none

/-- Replace the first occurrence of a text that is not empty. -/
def replaceFirst (pat rep : List Char) : List Char → List Char
  | [] => []
  | c :: cs =>
      if pat.isPrefixOf (c :: cs) then rep ++ (c :: cs).drop pat.length
      else c :: replaceFirst pat rep cs

/-- `s/^disabled_plugins = \["cri"\]/disabled_plugins = \[\]/`. -/
def enableCriLine (line : List Char) : List Char :=
  let disabled := "disabled_plugins = [\"cri\"]".toList
  if disabled.isPrefixOf line then "disabled_plugins = []".toList ++ line.drop disabled.length
  else line

/-- `s/SystemdCgroup\ =\ false/SystemdCgroup\ =\ true/`. -/
def systemdCgroupLine (line : List Char) : List Char :=
  replaceFirst "SystemdCgroup = false".toList "SystemdCgroup = true".toList line

/-! ## Hosts -/

/-- A host, as far as the scripts read and write it; `tools` are the commands that are found. With
`ufwLongStatus` the output of `ufw status` does not fit into a pipe. `containerdConfig` are the lines
that the install script has written to `/etc/containerd/config.toml`, as long as nothing else has. -/
structure Host where
  tools : List String
  fstab : List (List Char)
  swaps : List (List Char)
  ufwActive : Bool
  ufwLongStatus : Bool
  ufwState : Option String
  modules : List String
  packages : List String
  held : List String
  files : List String
  bundle : List String
  containerdConfig : Option (List (List Char))
  containerdEnabled : Bool
  containerdRunning : Bool
  deriving DecidableEq, Repr

/-- The file is in a directory, whose path ends with a slash. -/
def isBelow (directory file : String) : Bool := directory.toList.isPrefixOf file.toList

/-- The configuration of containerd. -/
def configFile : String := "/etc/containerd/config.toml"

/-- Names are added to a list. -/
def insertAll (names l : List String) : List String := names.foldl (fun l name => l.insert name) l

/-- Files are written by other commands than those for the configuration. -/
def Host.unpack (h : Host) (paths : List String) : Host :=
  { h with
    files := insertAll paths h.files
    containerdConfig := if paths.contains configFile then none else h.containerdConfig }

/-- Files are removed. -/
def Host.remove (h : Host) (gone : String → Bool) : Host :=
  { h with
    files := h.files.filter fun path => !gone path
    containerdConfig := if gone configFile then none else h.containerdConfig }

/-- `sed -i` on the configuration of containerd, which fails if there is no such file. -/
def Host.sedConfig (h : Host) (line : List Char → List Char) : Bool × Host :=
  if h.files.contains configFile then
    (true, { h with containerdConfig := h.containerdConfig.map (List.map line) })
  else (false, h)

/-- The status of a command that is not disturbed, and the host after it. -/
def effect (b : Bundle) (h : Host) : Command → Bool × Host
  | .commandV name => (h.tools.contains name, h)
  | .echo _ | .true' | .setDlBin _ | .mkdir _ | .sysctlSystem | .daemonReload => (true, h)
  | .aptGetInstall pkg => (true, { h with
      tools := h.tools.insert pkg
      packages := insertAll (pkg :: b.dependencies pkg) h.packages })
  | .downloadImgpkg => (true, { h with files := h.files.insert "/tmp/imgpkg" })
  | .mvImgpkg =>
      if h.files.contains "/tmp/imgpkg" then
        (true, { h with
          files := (h.files.filter (· ≠ "/tmp/imgpkg")).insert "/usr/local/bin/imgpkg" })
      else (false, h)
  | .chmodImgpkg =>
      if h.files.contains "/usr/local/bin/imgpkg" then
        (true, { h with tools := h.tools.insert "imgpkg" })
      else (false, h)
  | .imgpkgPull =>
      if h.tools.contains "imgpkg" then (true, { h with bundle := b.image }) else (false, h)
  | .swapoff => (true, { h with swaps := [] })
  | .swapon => (true, { h with swaps := h.swaps ∪ h.fstab.filterMap swapEntry })
  | .commentSwap => (true, { h with fstab := h.fstab.map commentSwapLine })
  | .uncommentSwap => (true, { h with fstab := h.fstab.map uncommentSwapLine })
  | .testNoUfwState => (h.ufwState.isNone, h)
  | .testUfwState => (h.ufwState.isSome, h)
  | .ufwStatusActive =>
      -- `grep -q` ends at the first line, and with `pipefail` the failure of `ufw` counts
      (h.ufwActive && !h.ufwLongStatus, h)
  | .writeUfwState value => (true, { h with ufwState := some value })
  | .grepUfwState => (h.ufwState = some "active", h)
  | .rmUfwState => (true, { h with ufwState := none })
  | .ufwDisable => (true, { h with ufwActive := false })
  | .ufwEnable => (true, { h with ufwActive := true })
  | .modprobe name => (true, { h with modules := h.modules.insert name })
  | .modprobeRemove _ name => (true, { h with modules := h.modules.filter (· ≠ name) })
  | .extract tar =>
      if h.bundle.contains tar.file then (true, h.unpack (b.paths tar)) else (false, h)
  | .testTar tar => (h.bundle.contains tar.file, h)
  | .removeEntries tar => ((b.entries tar).any isFile, h.remove (b.paths tar).contains)
  | .dpkgInstall pkg =>
      if h.bundle.contains (pkg ++ ".deb") then
        (true, { h with packages := h.packages.insert pkg })
      else (false, h)
  | .aptMarkHold pkg => (true, { h with held := h.held.insert pkg })
  | .dpkgList pkg => (h.packages.contains pkg, h)
  | .dpkgPurge pkg => (true, { h with
      packages := h.packages.filter (· ≠ pkg)
      held := h.held.filter (· ≠ pkg) })
  | .containerdConfigDefault => (true, { h with
      files := h.files.insert configFile
      containerdConfig := some b.defaultConfig })
  | .containerdConfig => if b.systemdCgroup then h.sedConfig systemdCgroupLine else (true, h)
  | .enableCri => h.sedConfig enableCriLine
  | .enableContainerd => (true, { h with containerdEnabled := true })
  | .restartContainerd => (true, { h with containerdRunning := true })
  | .stopContainerd => (true, { h with containerdRunning := false })
  | .disableContainerd => (true, { h with containerdEnabled := false })
  | .rmDirectory path => (true, h.remove (isBelow path))
  | .rmBundle => (true, { h with bundle := [] })

/-- What a command that fails or is cut off has done; `progress` is how far it came. -/
def partialEffect (b : Bundle) (h : Host) (progress : Nat) : Command → Host
  | .extract tar =>
      if h.bundle.contains tar.file then h.unpack ((b.paths tar).take progress) else h
  | .removeEntries tar => h.remove ((b.paths tar).take progress).contains
  | .rmDirectory path => h.remove ((h.files.filter (isBelow path)).take progress).contains
  | .imgpkgPull => if progress = 0 then h else { h with bundle := b.image.take progress }
  | .rmBundle => { h with bundle := h.bundle.drop progress }
  | .writeUfwState value =>
      -- the shell opens the file before the text is written
      if progress = 0 then h
      else { h with ufwState := some (if progress = 1 then "" else value) }
  | .containerdConfigDefault =>
      if progress = 0 then h
      else { h with
        files := h.files.insert configFile
        containerdConfig := some (b.defaultConfig.take (progress - 1)) }
  | c => if progress = 0 then h else (effect b h c).2

/-- The command is done by the shell itself, without writing a file; it cannot fail by itself. -/
def isBuiltin : Command → Bool
  | .commandV _ | .echo _ | .true' | .setDlBin _ | .testNoUfwState | .testUfwState | .testTar _ => true
  | _ => false

/-- The environment's choices for one command. -/
structure CommandOutcome where
  status : Status := .success
  progress : Nat := 0
  deriving DecidableEq, Repr

instance : Inhabited CommandOutcome := ⟨{}⟩

/-- Execute a command that is not disturbed. -/
def undisturbed (b : Bundle) (c : Command) (h : Host) : Status × Host :=
  (if (effect b h c).1 then .success else .failure, (effect b h c).2)

/-- Execute a command. -/
def execCommand (b : Bundle) (o : CommandOutcome) (c : Command) (h : Host) : Status × Host :=
  match o.status with
  | .success => undisturbed b c h
  | .failure =>
      if isBuiltin c then undisturbed b c h else (.failure, partialEffect b h o.progress c)
  | .killed => (.killed, partialEffect b h o.progress c)

/-! ## The scripts -/

open Script

abbrev run (c : Command) : Script Command := .command c

/-- A statement of a script, with the segments of its template. -/
structure Statement where
  segments : List Installer.Segment
  script : Script Command

/-- The packages of a bundle, in the order in which they are installed. -/
def packageNames : List String := ["cri-tools", "kubernetes-cni", "kubectl", "kubelet", "kubeadm"]

/-- Install imgpkg, if it is not there. -/
def installImgpkg : Statement where
  segments := [
    .text "if ! command -v imgpkg >>/dev/null; then\n",
    .text "    echo \"installing imgpkg\"\t\n",
    .text "    \n",
    .text "    if command -v wget >>/dev/null; then\n",
    .text "        dl_bin=\"wget -nv -O-\"\n",
    .text "    elif command -v curl >>/dev/null; then\n",
    .text "        dl_bin=\"curl -s -L\"\n",
    .text "    else\n",
    .text "        echo \"installing curl\"\n",
    .text "        apt-get install -y curl\n",
    .text "        dl_bin=\"curl -s -L\"\n",
    .text "    fi\n",
    .text "    \n",
    .text "    $dl_bin github.com/vmware-tanzu/carvel-imgpkg/releases/download/$IMGPKG_VERSION/imgpkg-linux-$ARCH > /tmp/imgpkg\n",
    .text "    mv /tmp/imgpkg /usr/local/bin/imgpkg\n",
    .text "    chmod +x /usr/local/bin/imgpkg\n",
    .text "fi\n",
    .text "\n"]
  script :=
    .ifThen (.not (run (.commandV "imgpkg")))
      (block [
        run (.echo "installing imgpkg"),
        .ifThen (run (.commandV "wget")) (run (.setDlBin "wget -nv -O-"))
          (.ifThen (run (.commandV "curl")) (run (.setDlBin "curl -s -L"))
            (block [
              run (.echo "installing curl"),
              run (.aptGetInstall "curl"),
              run (.setDlBin "curl -s -L")])),
        run .downloadImgpkg,
        run .mvImgpkg,
        run .chmodImgpkg])
      .nothing

/-- Disable swap. -/
def disableSwap : Statement where
  segments := [
    .text "## disable swap\n",
    .text "swapoff -a && sed -ri '/\\sswap\\s/s/^#?/#/' /etc/fstab\n",
    .text "\n"]
  script := .and (run .swapoff) (run .commentSwap)

/-- Save the state of the firewall, unless it has been saved already. -/
def saveFirewall : Script Command :=
  .ifThen (run .testNoUfwState)
    (.or (.and (run .ufwStatusActive) (run (.writeUfwState "active")))
      (run (.writeUfwState "inactive")))
    .nothing

/-- Save the state of the firewall and disable it. -/
def disableFirewall : Statement where
  segments := [
    .text "## disable firewall, save current state so uninstall can restore it\n",
    .text "if command -v ufw >>/dev/null; then\n",
    .text "    mkdir -p /var/lib/byoh\n",
    .text "    if [ ! -f /var/lib/byoh/ufw-state ]; then\n",
    .text "        ufw status | grep -q \"Status: active\" && echo \"active\" > /var/lib/byoh/ufw-state || echo \"inactive\" > /var/lib/byoh/ufw-state\n",
    .text "    fi\n",
    .text "    ufw disable\n",
    .text "fi\n",
    .text "\n"]
  script :=
    .ifThen (run (.commandV "ufw"))
      (block [run (.mkdir "/var/lib/byoh"), saveFirewall, run .ufwDisable])
      .nothing

/-- The statements before swap and firewall are disabled. -/
def fetchBundle : List Statement := [
  installImgpkg,
  { segments := [.text "echo \"downloading bundle\"\n"], script := run (.echo "downloading bundle") },
  { segments := [.text "mkdir -p $BUNDLE_PATH\n"], script := run (.mkdir "$BUNDLE_PATH") },
  { segments := [.text "imgpkg pull -i $BUNDLE_ADDR -o $BUNDLE_PATH\n", .text "\n"]
    script := run .imgpkgPull }]

/-- Install and hold the packages. -/
def installPackages : Statement where
  segments := [
    .text "## installing deb packages\n",
    .text "for pkg in cri-tools kubernetes-cni kubectl kubelet kubeadm; do\n",
    .text "    dpkg --install \"$BUNDLE_PATH/$pkg.deb\" && apt-mark hold $pkg\n",
    .text "done\n",
    .text "\n"]
  script := .forEach "pkg" packageNames fun pkg =>
    .and (run (.dpkgInstall pkg)) (run (.aptMarkHold pkg))

/-- The statements after that. -/
def installComponents : List Statement := [
  { segments := [.text "## load kernal modules\n",
      .text "modprobe overlay && modprobe br_netfilter\n", .text "\n"]
    script := .and (run (.modprobe "overlay")) (run (.modprobe "br_netfilter")) },
  { segments := [.text "## adding os configuration\n",
      .text "tar -C / -xvf \"$BUNDLE_PATH/conf.tar\" && sysctl --system \n", .text "\n"]
    script := .and (run (.extract .conf)) (run .sysctlSystem) },
  installPackages,
  { segments := [.text "## intalling containerd\n",
      .text "tar -C / -xvf \"$BUNDLE_PATH/containerd.tar\"\n"]
    script := run (.extract .containerd) },
  { segments := [.text "mkdir -p /etc/containerd\n"], script := run (.mkdir "/etc/containerd") },
  { segments := [.text "containerd config default > /etc/containerd/config.toml\n"]
    script := run .containerdConfigDefault },
  { segments := [.field .containerdConfig, .text "\n", .text "\n"]
    script := run .containerdConfig },
  { segments := [.text "# remove cri as a disabled plugins from containerd config\n",
      .text "sed -i 's/^disabled_plugins = \\[\"cri\"\\]/disabled_plugins = \\[\\]/' /etc/containerd/config.toml\n",
      .text "\n"]
    script := run .enableCri },
  { segments := [.text "## starting containerd service\n",
      .text "systemctl daemon-reload && systemctl enable containerd && systemctl restart containerd\n",
      .text "\n"]
    script := .and (.and (run .daemonReload) (run .enableContainerd)) (run .restartContainerd) },
  { segments := [.text "echo \"Installation complete!\"\n"]
    script := run (.echo "Installation complete!") }]

/-- The statements of `install.sh.tmpl`, after its options and variables. -/
def installStatements : List Statement :=
  fetchBundle ++ disableSwap :: disableFirewall :: installComponents

/-- `install.sh.tmpl`. -/
def installScript : Script Command := block (installStatements.map Statement.script)

/-- Stop containerd and remove its files. -/
def removeContainerd : List Statement := [
  { segments := [.text "## disabling containerd service\n",
      .text "systemctl stop containerd && systemctl disable containerd && systemctl daemon-reload\n",
      .text "\n"]
    script := .and (.and (run .stopContainerd) (run .disableContainerd)) (run .daemonReload) },
  { segments := [.text "## removing containerd configurations and cni plugins\n",
      .text "rm -rf /opt/cni/ && rm -rf /opt/containerd/ \n"]
    script := .and (run (.rmDirectory "/opt/cni/")) (run (.rmDirectory "/opt/containerd/")) },
  { segments := [
      .text "if [ -f \"$BUNDLE_PATH/containerd.tar\" ]; then\n",
      .text "  tar tf \"$BUNDLE_PATH/containerd.tar\" | xargs -n 1 echo '/' | sed 's/ //g'  | grep -e '[^/]$' | xargs rm -f\n",
      .text "fi\n",
      .text "\n"]
    script := .ifThen (run (.testTar .containerd)) (run (.removeEntries .containerd)) .nothing }]

/-- Purge the packages. -/
def purgePackages : Statement where
  segments := [
    .text "## removing deb packages\n",
    .text "for pkg in kubeadm kubelet kubectl kubernetes-cni cri-tools; do\n",
    .text "    dpkg -l $pkg &>/dev/null && dpkg --purge $pkg || echo \"Package $pkg not installed\"\n",
    .text "done\n",
    .text "\n"]
  script := .forEach "pkg" packageNames.reverse fun pkg =>
    .or (.and (run (.dpkgList pkg)) (run (.dpkgPurge pkg)))
      (run (.echo ("Package " ++ pkg ++ " not installed")))

/-- Remove the files of the OS configuration. -/
def removeConf : Statement where
  segments := [
    .text "## removing os configuration\n",
    .text "if [ -f \"$BUNDLE_PATH/conf.tar\" ]; then\n",
    .text "    tar tf \"$BUNDLE_PATH/conf.tar\" | xargs -n 1 echo '/' | sed 's/ //g' | grep -e \"[^/]$\" | xargs rm -f\n",
    .text "else\n",
    .text "    echo \"Warning: conf.tar not found, skipping OS configuration removal\"\n",
    .text "fi\n",
    .text "\n"]
  script := .ifThen (run (.testTar .conf)) (run (.removeEntries .conf))
    (run (.echo "Warning: conf.tar not found, skipping OS configuration removal"))

/-- Remove the kernel modules, unless this is to be skipped. -/
def removeModules (skipKernelModuleCleanup : Bool) : Statement where
  segments := [
    .text "## remove kernel modules\n",
    .unlessSkipKernelModuleCleanup "modprobe -rq overlay || true && modprobe -r br_netfilter || true",
    .text "\n",
    .text "\n"]
  script :=
    if skipKernelModuleCleanup then .nothing
    else .or (.and (.or (run (.modprobeRemove "-rq" "overlay")) (run .true'))
      (run (.modprobeRemove "-r" "br_netfilter"))) (run .true')

/-- Bring the firewall back to the state that was saved. -/
def restoreFirewall : Statement where
  segments := [
    .text "## restore firewall to its pre-install state\n",
    .text "if command -v ufw >>/dev/null; then\n",
    .text "    if [ -f /var/lib/byoh/ufw-state ] && grep -qx \"active\" /var/lib/byoh/ufw-state; then\n",
    .text "        ufw enable\n",
    .text "    fi\n",
    .text "    rm -f /var/lib/byoh/ufw-state\n",
    .text "fi\n",
    .text "\n"]
  script :=
    .ifThen (run (.commandV "ufw"))
      (block [
        .ifThen (.and (run .testUfwState) (run .grepUfwState)) (run .ufwEnable) .nothing,
        run .rmUfwState])
      .nothing

/-- Enable swap. -/
def enableSwap : Statement where
  segments := [
    .text "## enable swap\n",
    .text "swapon -a && sed -ri '/\\sswap\\s/s/^#?//' /etc/fstab\n",
    .text "\n"]
  script := .and (run .swapon) (run .uncommentSwap)

/-- Remove the bundle. -/
def removeBundle : Statement where
  segments := [.text "rm -rf $BUNDLE_PATH\n"]
  script := run .rmBundle

/-- The statements of `uninstall.sh.tmpl`, after its options and variables. -/
def uninstallStatements (skipKernelModuleCleanup : Bool) : List Statement :=
  removeContainerd ++ [purgePackages, removeConf, removeModules skipKernelModuleCleanup,
    restoreFirewall, enableSwap, removeBundle]

/-- `uninstall.sh.tmpl`. -/
def uninstallScript (skipKernelModuleCleanup : Bool) : Script Command :=
  block ((uninstallStatements skipKernelModuleCleanup).map Statement.script)

/-- The statements are those of the install template. -/
theorem installStatements_segments :
    installStatements.flatMap Statement.segments =
      Installer.commonUbuntuInstallTemplate.drop 16 := rfl

/-- The statements are those of the uninstall template. -/
theorem uninstallStatements_segments (skip : Bool) :
    (uninstallStatements skip).flatMap Statement.segments =
      Installer.commonUbuntuUninstallTemplate.drop 10 := rfl

end Byoh.Model.InstallScripts
