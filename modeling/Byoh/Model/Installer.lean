import Byoh.Foundation.GoFunction
import Byoh.Model.Objects
import Byoh.Foundation.Text

/-!
# The installer

`installer/registry.go`, `installer/installer.go`, the address of
`installer/bundle_downloader.go`, and `installer/internal/algo`: from the OS image, the
architecture and the Kubernetes version of a host to its install and uninstall script.

The scripts are rendered with `html/template`, so the values that are filled in are escaped. A
template is the list of its segments; the text is that of `ubuntu-templates`.
-/

set_option autoImplicit false

namespace Byoh.Model.Installer

open Byoh.Foundation

/-! ## Registry -/

/-- `registry`: the Kubernetes versions of each OS bundle, and the OS and version filters in the
order in which they were added. -/
structure Registry where
  osk8sInstallerMap : AList (fun _ : String => List String) := ∅
  filterOSBundleList : List (String × String) := []
  filterK8sBundleList : List String := []

namespace Registry

/-- `AddBundleInstaller`; `none` is the panic on a version that the bundle already has. -/
def addBundleInstaller (r : Registry) (os k8sVer : String) : Option Registry :=
  let k8sMap := (r.osk8sInstallerMap.lookup os).getD []
  if k8sVer ∈ k8sMap then none
  else some { r with osk8sInstallerMap := r.osk8sInstallerMap.insert os (k8sMap ++ [k8sVer]) }

/-- `AddOsFilter`. -/
def addOsFilter (r : Registry) (osFilter osBundle : String) : Registry :=
  { r with filterOSBundleList := r.filterOSBundleList ++ [(osFilter, osBundle)] }

/-- `AddK8sFilter`. -/
def addK8sFilter (r : Registry) (k8sFilter : String) : Registry :=
  { r with filterK8sBundleList := r.filterK8sBundleList ++ [k8sFilter] }

/-- The first OS filter that matches, when `matched` is the match of regular expressions. -/
def firstFilter (matched : String → String → Bool) (r : Registry) (os : String) :
    Option (String × String) :=
  r.filterOSBundleList.find? fun fbp => matched fbp.1 os

/-- `ResolveOsToOsBundle` when `matched` is the match of regular expressions: the bundle of the first
filter that matches. -/
def resolveBy (matched : String → String → Bool) (r : Registry) (os : String) : String :=
  match r.firstFilter matched os with
  | some fbp => fbp.2
  | none => ""

/-- `ListK8s` when `matched` is the match of regular expressions, in one of the orders in which a map
may be iterated. -/
def listK8sBy (matched : String → String → Bool) (r : Registry) (osBundleHost : String) :
    List String :=
  match r.osk8sInstallerMap.lookup osBundleHost with
  | some k8sMap => k8sMap
  | none => (r.osk8sInstallerMap.lookup (r.resolveBy matched osBundleHost)).getD []

/-- `ResolveOsToOsBundle`. -/
def resolveOsToOsBundle (r : Registry) (os : String) : String := r.resolveBy Text.matchString os

/-- `ListK8s`. -/
def listK8s (r : Registry) (osBundleHost : String) : List String :=
  r.listK8sBy Text.matchString osBundleHost

end Registry

/-- A call that adds to a registry. -/
inductive RegistryCall where
  | addBundleInstaller (os k8sVer : String)
  | addOsFilter (osFilter osBundle : String)
  | addK8sFilter (k8sFilter : String)
  deriving DecidableEq, Repr

/-- Make a call; `none` is a panic. -/
def Registry.call (r : Registry) : RegistryCall → Option Registry
  | .addBundleInstaller os k8sVer => r.addBundleInstaller os k8sVer
  | .addOsFilter osFilter osBundle => some (r.addOsFilter osFilter osBundle)
  | .addK8sFilter k8sFilter => some (r.addK8sFilter k8sFilter)

/-- The registry after these calls on an empty one. -/
def Registry.build (calls : List RegistryCall) : Option Registry := calls.foldlM Registry.call {}

/-- `GetSupportedRegistry`. -/
def getSupportedRegistry : Option Registry := do
  let linuxDistro20_04 := "Ubuntu_20.04.1_x86-64"
  let linuxDistro22_04 := "Ubuntu_22.04_x86-64"
  let reg ← Registry.addBundleInstaller {} linuxDistro20_04 "v1.31.*"
  let reg ← reg.addBundleInstaller linuxDistro22_04 "v1.31.*"
  let reg := reg.addK8sFilter "v1.31.*"
  let reg := reg.addOsFilter "Ubuntu_20.04.*_x86-64" linuxDistro20_04
  return reg.addOsFilter "Ubuntu_22.04.*_x86-64" linuxDistro22_04

/-! ## Bundle addresses -/

/-- `GetBundleName`. -/
def getBundleName (normalizedOsVersion : String) : String :=
  String.ofList (("byoh-bundle-" ++ normalizedOsVersion ++ "_k8s").toList.map Char.toLower)

/-- `GetBundleAddr` of a downloader for the repository `repoAddr`. -/
def getBundleAddr (repoAddr normalizedOsVersion k8sVersion : String) : String :=
  repoAddr ++ "/" ++ getBundleName normalizedOsVersion ++ ":" ++ k8sVersion

/-! ## Scripts -/

/-- The fields of the script templates. -/
inductive TemplateField where
  | bundleAddrs
  | arch
  | imgpkgVersion
  | containerdConfig
  | bundleDownloadPath
  deriving DecidableEq, Repr

/-- A segment of a script template. -/
inductive Segment where
  | text (s : String)
  | field (f : TemplateField)
  | unlessSkipKernelModuleCleanup (s : String)
  deriving DecidableEq, Repr

/-- `ImgpkgVersion`. -/
def imgpkgVersion : String := "v0.36.4"

/-- `commonUbuntuInstallTemplate`. -/
def commonUbuntuInstallTemplate : List Segment :=
  [ .text "set -euox pipefail\n",
    .text "\n",
    .text "BUNDLE_DOWNLOAD_PATH=",
    .field .bundleDownloadPath,
    .text "\n",
    .text "BUNDLE_ADDR=",
    .field .bundleAddrs,
    .text "\n",
    .text "IMGPKG_VERSION=",
    .field .imgpkgVersion,
    .text "\n",
    .text "ARCH=",
    .field .arch,
    .text "\n",
    .text "BUNDLE_PATH=$BUNDLE_DOWNLOAD_PATH/$BUNDLE_ADDR\n",
    .text "\n",
    .text "if ! command -v imgpkg >>/dev/null; then\n",
    .text "    echo \"installing imgpkg\"\t\n",
    .text "    \n",
    .text "    if command -v wget >>/dev/null; then\n",
    .text "        dl_bin=\"wget -nv -O-\"\n",
    .text "    elif command -v curl >>/dev/null; then\n",
    .text "        dl_bin=\"curl -s -L\"\n",
    .text "    else\n",
    .text "        echo \"installing curl\"\n",
    .text "        apt-get install -y curl\n",
    .text "        dl_bin=\"curl -s -L\"\n",
    .text "    fi\n",
    .text "    \n",
    .text "    $dl_bin github.com/vmware-tanzu/carvel-imgpkg/releases/download/$IMGPKG_VERSION/imgpkg-linux-$ARCH > /tmp/imgpkg\n",
    .text "    mv /tmp/imgpkg /usr/local/bin/imgpkg\n",
    .text "    chmod +x /usr/local/bin/imgpkg\n",
    .text "fi\n",
    .text "\n",
    .text "echo \"downloading bundle\"\n",
    .text "mkdir -p $BUNDLE_PATH\n",
    .text "imgpkg pull -i $BUNDLE_ADDR -o $BUNDLE_PATH\n",
    .text "\n",
    .text "## disable swap\n",
    .text "swapoff -a && sed -ri '/\\sswap\\s/s/^#?/#/' /etc/fstab\n",
    .text "\n",
    .text "## disable firewall, save current state so uninstall can restore it\n",
    .text "if command -v ufw >>/dev/null; then\n",
    .text "    mkdir -p /var/lib/byoh\n",
    .text "    if [ ! -f /var/lib/byoh/ufw-state ]; then\n",
    .text "        ufw status | grep -q \"Status: active\" && echo \"active\" > /var/lib/byoh/ufw-state || echo \"inactive\" > /var/lib/byoh/ufw-state\n",
    .text "    fi\n",
    .text "    ufw disable\n",
    .text "fi\n",
    .text "\n",
    .text "## load kernal modules\n",
    .text "modprobe overlay && modprobe br_netfilter\n",
    .text "\n",
    .text "## adding os configuration\n",
    .text "tar -C / -xvf \"$BUNDLE_PATH/conf.tar\" && sysctl --system \n",
    .text "\n",
    .text "## installing deb packages\n",
    .text "for pkg in cri-tools kubernetes-cni kubectl kubelet kubeadm; do\n",
    .text "    dpkg --install \"$BUNDLE_PATH/$pkg.deb\" && apt-mark hold $pkg\n",
    .text "done\n",
    .text "\n",
    .text "## intalling containerd\n",
    .text "tar -C / -xvf \"$BUNDLE_PATH/containerd.tar\"\n",
    .text "mkdir -p /etc/containerd\n",
    .text "containerd config default > /etc/containerd/config.toml\n",
    .field .containerdConfig,
    .text "\n",
    .text "\n",
    .text "# remove cri as a disabled plugins from containerd config\n",
    .text "sed -i 's/^disabled_plugins = \\[\"cri\"\\]/disabled_plugins = \\[\\]/' /etc/containerd/config.toml\n",
    .text "\n",
    .text "## starting containerd service\n",
    .text "systemctl daemon-reload && systemctl enable containerd && systemctl restart containerd\n",
    .text "\n",
    .text "echo \"Installation complete!\"\n" ]

/-- `commonUbuntuUninstallTemplate`. -/
def commonUbuntuUninstallTemplate : List Segment :=
  [ .text "set -euox pipefail\n",
    .text "\n",
    .text "BUNDLE_DOWNLOAD_PATH=",
    .field .bundleDownloadPath,
    .text "\n",
    .text "BUNDLE_ADDR=",
    .field .bundleAddrs,
    .text "\n",
    .text "BUNDLE_PATH=$BUNDLE_DOWNLOAD_PATH/$BUNDLE_ADDR\n",
    .text "\n",
    .text "## disabling containerd service\n",
    .text "systemctl stop containerd && systemctl disable containerd && systemctl daemon-reload\n",
    .text "\n",
    .text "## removing containerd configurations and cni plugins\n",
    .text "rm -rf /opt/cni/ && rm -rf /opt/containerd/ \n",
    .text "if [ -f \"$BUNDLE_PATH/containerd.tar\" ]; then\n",
    .text "  tar tf \"$BUNDLE_PATH/containerd.tar\" | xargs -n 1 echo '/' | sed 's/ //g'  | grep -e '[^/]$' | xargs rm -f\n",
    .text "fi\n",
    .text "\n",
    .text "## removing deb packages\n",
    .text "for pkg in kubeadm kubelet kubectl kubernetes-cni cri-tools; do\n",
    .text "    dpkg -l $pkg &>/dev/null && dpkg --purge $pkg || echo \"Package $pkg not installed\"\n",
    .text "done\n",
    .text "\n",
    .text "## removing os configuration\n",
    .text "if [ -f \"$BUNDLE_PATH/conf.tar\" ]; then\n",
    .text "    tar tf \"$BUNDLE_PATH/conf.tar\" | xargs -n 1 echo '/' | sed 's/ //g' | grep -e \"[^/]$\" | xargs rm -f\n",
    .text "else\n",
    .text "    echo \"Warning: conf.tar not found, skipping OS configuration removal\"\n",
    .text "fi\n",
    .text "\n",
    .text "## remove kernel modules\n",
    .unlessSkipKernelModuleCleanup "modprobe -rq overlay || true && modprobe -r br_netfilter || true",
    .text "\n",
    .text "\n",
    .text "## restore firewall to its pre-install state\n",
    .text "if command -v ufw >>/dev/null; then\n",
    .text "    if [ -f /var/lib/byoh/ufw-state ] && grep -qx \"active\" /var/lib/byoh/ufw-state; then\n",
    .text "        ufw enable\n",
    .text "    fi\n",
    .text "    rm -f /var/lib/byoh/ufw-state\n",
    .text "fi\n",
    .text "\n",
    .text "## enable swap\n",
    .text "swapon -a && sed -ri '/\\sswap\\s/s/^#?//' /etc/fstab\n",
    .text "\n",
    .text "rm -rf $BUNDLE_PATH\n" ]

/-- The escape of a character in HTML text. -/
def escapeChar (c : Char) : List Char :=
  if c = '"' then "&#34;".toList
  else if c = '&' then "&amp;".toList
  else if c = '\'' then "&#39;".toList
  else if c = '+' then "&#43;".toList
  else if c = '<' then "&lt;".toList
  else if c = '>' then "&gt;".toList
  else if c = Char.ofNat 0 then [Char.ofNat 0xFFFD]
  else [c]

/-- The escape of a value in HTML text. -/
def escape (s : String) : String := String.ofList (s.toList.flatMap escapeChar)

/-- `Template.Execute`. -/
def execute (data : TemplateField → String) (skipKernelModuleCleanup : Bool)
    (template : List Segment) : String :=
  String.join (template.map fun
    | .text s => s
    | .field f => escape (data f)
    | .unlessSkipKernelModuleCleanup s => if skipKernelModuleCleanup then "" else s)

theorem execute_append (data : TemplateField → String) (skipKernelModuleCleanup : Bool)
    (template rest : List Segment) :
    execute data skipKernelModuleCleanup (template ++ rest) =
      execute data skipKernelModuleCleanup template ++ execute data skipKernelModuleCleanup rest := by
  rw [execute, List.map_append, String.join_append]
  rfl

/-- Only the fields of a template matter. -/
theorem execute_congr {data data' : TemplateField → String} (skipKernelModuleCleanup : Bool)
    {template : List Segment} (h : ∀ f, .field f ∈ template → data f = data' f) :
    execute data skipKernelModuleCleanup template =
      execute data' skipKernelModuleCleanup template := by
  refine congrArg String.join (List.map_congr_left ?_)
  intro segment hsegment
  cases segment with
  | text s => rfl
  | field f => exact congrArg escape (h f hsegment)
  | unlessSkipKernelModuleCleanup s => rfl

/-- `K8sInstaller`. -/
structure K8sInstaller where
  install : String
  uninstall : String
  deriving DecidableEq, Repr

/-- The data of the scripts. -/
def scriptData (arch bundleAddrs containerdConfig : String) : TemplateField → String
  | .bundleAddrs => bundleAddrs
  | .arch => arch
  | .imgpkgVersion => imgpkgVersion
  | .containerdConfig => containerdConfig
  | .bundleDownloadPath => "/var/lib/byoh/bundles"

/-- `NewBaseUbuntuInstaller`; the embedded templates are not empty and they parse. -/
def newBaseUbuntuInstaller (arch bundleAddrs containerdConfig : String)
    (skipKernelModuleCleanup : Bool) : K8sInstaller :=
  let data := scriptData arch bundleAddrs containerdConfig
  { install := execute data skipKernelModuleCleanup commonUbuntuInstallTemplate
    uninstall := execute data skipKernelModuleCleanup commonUbuntuUninstallTemplate }

/-- `NewUbuntu20_04Installer`. -/
def newUbuntu20_04Installer (arch bundleAddrs : String) (skipKernelModuleCleanup : Bool) :
    K8sInstaller :=
  newBaseUbuntuInstaller arch bundleAddrs "" skipKernelModuleCleanup

/-- `systemdCgroupConfig`. -/
def systemdCgroupConfig : String :=
  "sed -i s/SystemdCgroup\\ =\\ false/SystemdCgroup\\ =\\ true/ /etc/containerd/config.toml"

/-- `NewUbuntu22_04Installer`. -/
def newUbuntu22_04Installer (arch bundleAddrs : String) (skipKernelModuleCleanup : Bool) :
    K8sInstaller :=
  newBaseUbuntuInstaller arch bundleAddrs systemdCgroupConfig skipKernelModuleCleanup

/-! ## NewInstaller -/

/-- The architecture in bundle names (`archOldNameMap`). -/
def bundleArchName (arch : String) : String := if arch = "amd64" then "x86-64" else arch

/-- The OS image and architecture as `NewInstaller` looks them up. -/
def osArch (osDist arch : String) : String :=
  Text.replaceChar osDist ' ' '_' ++ "_" ++ bundleArchName arch

/-- `NewInstaller`, for a downloader of the repository `repoAddr`. -/
def newInstaller (osDist arch k8sVersion repoAddr : String) (skipKernelModuleCleanup : Bool) :
    Exit Err K8sInstaller :=
  match getSupportedRegistry with
  | none => .panic "already exists"
  | some reg =>
      if (reg.listK8s (osArch osDist arch)).isEmpty then .err (.text "No k8s support for OS")
      else
        let osbundle := reg.resolveOsToOsBundle (osArch osDist arch)
        let addrs := getBundleAddr repoAddr osbundle k8sVersion
        .ok (if Text.contains osbundle "Ubuntu_22.04" then
            newUbuntu22_04Installer arch addrs skipKernelModuleCleanup
          else newUbuntu20_04Installer arch addrs skipKernelModuleCleanup)

/-- The OS image and architecture are supported. -/
def Supported (osDist arch : String) : Prop :=
  ∃ reg, getSupportedRegistry = some reg ∧ (reg.listK8s (osArch osDist arch)).isEmpty = false

/-- Whether a host is supported does not depend on version, repository or flags. -/
theorem newInstaller_ok_of_supported {osDist arch : String} (h : Supported osDist arch)
    (k8sVersion repoAddr : String) (skipKernelModuleCleanup : Bool) :
    ∃ i, newInstaller osDist arch k8sVersion repoAddr skipKernelModuleCleanup = .ok i := by
  obtain ⟨reg, hreg, hlist⟩ := h
  simp [newInstaller, hreg, hlist]

end Byoh.Model.Installer
