import LoadPlan.BaseUrl
import LoadPlan.Plan.Placeholder
import LoadPlan.Plan.Property
import LoadPlan.Plan.Request
import LoadPlan.Program
import LoadPlan.Settings.Basic

/-! The test plan for settings and requests: one thread group that holds the defaults and headers
shared by its requests, a sampler for each request, and two collectors of results. -/
namespace LoadPlan.Plan
open Xml (Element)

def baseUrlVariable (url : String) : Element :=
  record "BASE_URL" "Argument" [
    textProperty "Argument.name" "BASE_URL",
    textProperty "Argument.value" url,
    textProperty "Argument.metadata" "="]

def planComponent (s : Settings) : Element :=
  component "TestPlan" "TestPlanGui" s.name [
    textProperty "TestPlan.comments" "",
    flag "TestPlan.functional_mode" false,
    flag "TestPlan.tearDown_on_shutdown" true,
    flag "TestPlan.serialize_threadgroups" false,
    panelRecord "TestPlan.user_defined_variables" "Arguments" "ArgumentsPanel"
      "User Defined Variables" [collection "Arguments.arguments" [baseUrlVariable s.baseUrl]],
    textProperty "TestPlan.user_define_classpath" ""]

def loopController (loops : UInt32) : Element :=
  panelRecord "ThreadGroup.main_controller" "LoopController" "LoopControlPanel" "Loop Controller" [
    flag "LoopController.continue_forever" false,
    textProperty "LoopController.loops" (toString loops.toNat)]

def threadGroup (s : Settings) : Element :=
  component "ThreadGroup" "ThreadGroupGui" "Thread Group" [
    textProperty "ThreadGroup.on_sample_error" "continue",
    loopController s.loops,
    textProperty "ThreadGroup.num_threads" (toString s.threads.toNat),
    textProperty "ThreadGroup.ramp_time" (toString s.rampUp.toNat),
    flag "ThreadGroup.scheduler" false,
    textProperty "ThreadGroup.duration" "",
    textProperty "ThreadGroup.delay" "",
    flag "ThreadGroup.same_user_on_next_iteration" true]

/-- Where requests go that name no host of their own. -/
def requestDefaults (url : BaseUrl) : Element :=
  component "ConfigTestElement" "HttpDefaultsGui" "HTTP Request Defaults" [
    noArguments,
    textProperty "HTTPSampler.domain" url.host,
    textProperty "HTTPSampler.port" url.port,
    textProperty "HTTPSampler.protocol" url.protocol,
    textProperty "HTTPSampler.contentEncoding" "",
    textProperty "HTTPSampler.path" url.path,
    textProperty "HTTPSampler.concurrentPool" "6",
    textProperty "HTTPSampler.connect_timeout" "",
    textProperty "HTTPSampler.response_timeout" ""]

def userAgent : String := Program.name ++ "/" ++ Program.version

def sharedHeaders : List (String × String) :=
  [("Content-Type", "application/json"), ("Accept", "application/json"), ("User-Agent", userAgent)]

def header (name value : String) : Element :=
  record "" "Header" [textProperty "Header.name" name, textProperty "Header.value" value]

def headerManager : Element :=
  component "HeaderManager" "HeaderPanel" "HTTP Header Manager"
    [collection "HeaderManager.headers" (sharedHeaders.map fun (name, value) => header name value)]

/-- A body is sent as it is, in the place of the only argument. -/
def bodyArguments (body : String) : Element :=
  record "HTTPsampler.Arguments" "Arguments" [
    collection "Arguments.arguments" [
      record "" "HTTPArgument" [
        flag "HTTPArgument.always_encode" false,
        textProperty "Argument.value" body,
        textProperty "Argument.metadata" "="]]]

def bodyParts : Option String → List Element
  | some body => [flag "HTTPSampler.postBodyRaw" true, bodyArguments body]
  | none => [noArguments]

/-- The path of a request: that of the base URL, then the operation's with its placeholders. -/
def requestPath (basePath : String) (operation : Operation) : String :=
  basePath ++ Placeholder.toVariables operation.path

def connectTimeout : String := "5000"

def responseTimeout : String := "30000"

def sampler (basePath : String) (request : Request) : Element :=
  component "HTTPSamplerProxy" "HttpTestSampleGui" request.operation.displayName
    (bodyParts request.body ++ [
      textProperty "HTTPSampler.domain" "",
      textProperty "HTTPSampler.port" "",
      textProperty "HTTPSampler.protocol" "",
      textProperty "HTTPSampler.contentEncoding" "",
      textProperty "HTTPSampler.path" (requestPath basePath request.operation),
      textProperty "HTTPSampler.method" request.operation.method.name,
      flag "HTTPSampler.follow_redirects" true,
      flag "HTTPSampler.auto_redirects" false,
      flag "HTTPSampler.use_keepalive" true,
      flag "HTTPSampler.DO_MULTIPART_POST" false,
      textProperty "HTTPSampler.embedded_url_re" "",
      textProperty "HTTPSampler.connect_timeout" connectTimeout,
      textProperty "HTTPSampler.response_timeout" responseTimeout])

/-- What collectors record of each response, and what not. -/
def recorded : List (String × String) := [
  ("time", "true"),
  ("latency", "true"),
  ("timestamp", "true"),
  ("success", "true"),
  ("label", "true"),
  ("code", "true"),
  ("message", "true"),
  ("threadName", "true"),
  ("dataType", "true"),
  ("encoding", "false"),
  ("assertions", "true"),
  ("subresults", "true"),
  ("responseData", "false"),
  ("samplerData", "false"),
  ("xml", "false"),
  ("fieldNames", "true"),
  ("responseHeaders", "false"),
  ("requestHeaders", "false"),
  ("responseDataOnError", "false"),
  ("saveAssertionResultsFailureMessage", "true"),
  ("assertionsResultsToSave", "0"),
  ("bytes", "true"),
  ("sentBytes", "true"),
  ("url", "true"),
  ("threadCounts", "true"),
  ("idleTime", "true"),
  ("connectTime", "true")]

def recordedFields : Element :=
  .parent ⟨"value", [("class", "SampleSaveConfiguration")]⟩
    (recorded.map fun (name, value) => .text ⟨name, []⟩ value)

def resultCollector (panel title : String) : Element :=
  component "ResultCollector" panel title [
    flag "ResultCollector.error_logging" false,
    .parent ⟨"objProp", []⟩ [.text ⟨"name", []⟩ "saveConfig", recordedFields],
    textProperty "filename" ""]

/-- The components of the thread group, each with the tree under it. -/
def threadGroupTree (url : BaseUrl) (requests : List Request) : Element :=
  let components := [requestDefaults url, headerManager] ++ requests.map (sampler url.path) ++
    [resultCollector "ViewResultsFullVisualizer" "View Results Tree",
      resultCollector "SummaryReport" "Summary Report"]
  tree (components.flatMap fun part => [part, leafTree])

def testPlan (s : Settings) (requests : List Request) : Element :=
  .parent ⟨"jmeterTestPlan", [("version", "1.2"), ("properties", "5.0"), ("jmeter", "5.6.3")]⟩ [
    tree [
      planComponent s,
      tree [threadGroup s, threadGroupTree (BaseUrl.parse s.baseUrl) requests]]]

end LoadPlan.Plan
